import Praefectus.Engine.EffectSoundness
import Praefectus.Engine.Records

/-!
# Background actions

A background action is dispatched only where its one advertised capability allows it
for the isolation of the session, and it succeeds on a shared desktop only if the
desktop was sampled before and after the dispatch and found the same.
-/

namespace Praefectus

open Prog

/-! ### Capabilities -/

/-- The capability is the only one advertised for the action. -/
def UniqueCapability (capabilities : Capabilities) (action : Action)
    (capability : ActionCapability) : Prop :=
  capabilities.actionCapabilities.filter (·.action = action.name) = [capability]

/-- The facts collected for a name are the capabilities advertised for it, at most one. -/
theorem collectFacts_lookup {facts found : List (String × ActionCapability)}
    {capabilities : List ActionCapability} (collected : collectFacts facts capabilities = some found)
    (name : String) :
    (facts.lookup name).toList ++ capabilities.filter (·.action = name) =
      (found.lookup name).toList := by
  induction capabilities generalizing facts with
  | nil =>
    obtain rfl := Option.some.inj collected
    exact List.append_nil _
  | cons capability rest ih =>
    simp only [collectFacts] at collected
    split at collected
    · contradiction
    next fresh =>
      simp only [Bool.or_eq_true, not_or, Bool.not_eq_true, Option.isSome_eq_false_iff,
        Option.isNone_iff_eq_none] at fresh
      rw [← ih collected]
      by_cases same : capability.action = name
      · subst same
        simp only [fresh.2, List.lookup_cons_self, Option.toList_none, Option.toList_some,
          List.filter_cons, decide_true, if_true, List.nil_append, List.singleton_append]
      · have other : (name == capability.action) = false :=
          beq_eq_false_iff_ne.mpr fun equal => same equal.symm
        simp only [List.lookup_cons, other, List.filter_cons, same, decide_false,
          Bool.false_eq_true, if_false]

theorem strictActionCapability_unique {capabilities : Capabilities} {action : Action}
    {capability : ActionCapability}
    (found : strictActionCapability capabilities action = some capability) :
    UniqueCapability capabilities action capability := by
  unfold strictActionCapability at found
  split at found
  · contradiction
  split at found
  · contradiction
  next facts collected =>
    split at found
    · contradiction
    split at found
    next =>
      have whole := collectFacts_lookup collected action.name
      rw [found] at whole
      exact whole
    next => contradiction

/-! ### The questions of a locked call -/

/-- Questions other than those a call asks before it holds the ledger lock. -/
def EngineOp.IsInside : EngineOp → Prop
  | .directories | .verifyAuthority .. | .sessionIsolation | .lock _ => False
  | _ => True

/-- Those it asks as long as it holds the lock. -/
def EngineOp.IsWithin : EngineOp → Prop
  | .directories | .verifyAuthority .. | .sessionIsolation | .lock _ | .release _ => False
  | _ => True

theorem within_inside {op : EngineOp} (within : op.IsWithin) : op.IsInside := by
  cases op <;> simp_all [EngineOp.IsWithin, EngineOp.IsInside]

theorem quiet_within {op : EngineOp} (quiet : op.IsQuiet) : op.IsWithin := by
  cases op <;> simp_all [EngineOp.IsQuiet, EngineOp.IsWithin]

theorem settling_within {op : EngineOp} (settling : op.IsSettling) : op.IsWithin := by
  cases op <;> simp_all [EngineOp.IsSettling, EngineOp.IsWithin]

theorem within_ask {op : EngineOp} (within : op.IsWithin) : (ask op).Only EngineOp.IsWithin :=
  ⟨within, fun _ => trivial⟩

theorem within_claim (build : Build) (request : ActionRequest) (actionHash : String)
    (sessionIsolation : SessionIsolation) :
    (claim build request actionHash sessionIsolation).run.Only EngineOp.IsWithin := by
  refine only_try (within_ask trivial) fun found => ?_
  split
  · split <;> exact trivial
  · refine only_try (only_lift (within_ask trivial)) fun claimedAtMs => ?_
    exact only_try (within_ask trivial) fun _ => trivial

theorem undispatched_claim (build : Build) (request : ActionRequest) (actionHash : String)
    (sessionIsolation : SessionIsolation) :
    (claim build request actionHash sessionIsolation).run.Only fun op : EngineOp => ¬ op.IsDispatch := by
  refine only_try ⟨id, fun _ => trivial⟩ fun found => ?_
  split
  · split <;> exact trivial
  · refine only_try (only_lift ⟨id, fun _ => trivial⟩) fun claimedAtMs => ?_
    exact only_try ⟨id, fun _ => trivial⟩ fun _ => trivial

namespace Execution

variable (execution : Execution)

theorem within_granted : execution.granted.run.Only EngineOp.IsWithin := by
  refine only_try (only_lift (only_mono execution.quiet_prepare fun _ => quiet_within))
    fun prepared => ?_
  cases prepared with
  | error terminal =>
    exact only_mono (execution.settling_finishWithoutEffect _ _) fun _ => settling_within
  | ok prepared =>
    refine only_try (only_lift ?dispatching) fun settled => ?_
    case dispatching =>
      refine only_bind (within_ask trivial) fun startedAtMs => ?_
      refine only_bind (within_ask trivial) fun answer => ?_
      exact only_mono (execution.quiet_settleDispatch _ _ _) fun _ => quiet_within
    obtain ⟨terminal, effect⟩ := settled
    cases effect with
    | true => exact only_mono (execution.settling_finishWithEffect _) fun _ => settling_within
    | false =>
      exact only_mono (execution.settling_finishWithoutEffect _ _) fun _ => settling_within

theorem within_claimed : execution.claimed.run.Only EngineOp.IsWithin := by
  refine only_try (within_ask trivial) fun decision => ?_
  refine only_try (only_lift ?_) fun resolved => ?_
  · cases decision with
    | interrupted =>
      exact only_bind (only_mono (execution.quiet_emptyReceipt _) fun _ => quiet_within)
        fun _ => trivial
    | _ => exact trivial
  · cases resolved with
    | none => exact execution.within_granted
    | some terminal =>
      exact only_try (only_mono (settling_finish _) fun _ => settling_within) fun _ => trivial

theorem within_recovered (claim : ClaimFacts) :
    (execution.recovered claim).run.Only EngineOp.IsWithin := by
  refine only_try (only_lift (only_mono (execution.quiet_emptyReceipt _) fun _ => quiet_within))
    fun receipt => ?_
  refine only_try (within_ask trivial) fun decision => ?_
  have finishing (terminal : Terminal) :
      (do
        finish (execution.terminalAck terminal)
        pure ⟨[execution.terminalAck terminal]⟩ : EngineM ExecuteReport).run.Only
          EngineOp.IsWithin :=
    only_try (only_mono (settling_finish _) fun _ => settling_within) fun _ => trivial
  cases decision <;> exact finishing _

theorem within_locked : execution.locked.run.Only EngineOp.IsWithin := by
  refine only_try (within_ask trivial) fun _ => ?_
  refine only_try (within_claim _ _ _ _) fun result => ?_
  cases result with
  | new => exact execution.within_claimed
  | replay acknowledgement =>
    exact only_try (only_mono (settling_reconcileInterrupted _ _) fun _ => settling_within)
      fun _ => trivial
  | recoveredUnknown claim => exact execution.within_recovered claim

theorem inside_locked : execution.locked.run.Only EngineOp.IsInside :=
  only_mono execution.within_locked fun _ => within_inside

/-! ### A pending dispatch -/

variable {execution}

/-- A granted call comes to its dispatch by the way that makes it ready. -/
theorem granted_asks {history : History} {op : EngineOp}
    {next : op.Answer → Prog Engine (Except ProtocolError ExecuteReport)}
    (run : Steps execution.granted.run history (.ask op next)) (dispatches : op.IsDispatch) :
    ∃ prepared, execution.Ready prepared history := by
  rcases steps_try_ask run with ⟨_, preparing⟩ | ⟨way, result, rest, rfl, prepared, run⟩
  · rw [run_monadLift] at preparing
    rcases steps_bind_ask preparing with ⟨_, preparing⟩ | ⟨_, _, _, _, _, returned⟩
    · exact absurd dispatches (quiet_undispatched (only_pending execution.quiet_prepare preparing))
    · nomatch returned
  · obtain ⟨_, prepared, same⟩ := steps_lift.mp prepared
    obtain rfl := Except.ok.inj same
    cases result with
    | error terminal =>
      exact absurd dispatches (settling_undispatched
        (only_pending (execution.settling_finishWithoutEffect _ _) run))
    | ok known =>
      exact ⟨known, ready_after (prepare_ready prepared) fun e member =>
        List.mem_append_left _ member⟩

theorem claimed_asks {history : History} {op : EngineOp}
    {next : op.Answer → Prog Engine (Except ProtocolError ExecuteReport)}
    (run : Steps execution.claimed.run history (.ask op next)) (dispatches : op.IsDispatch) :
    ∃ prepared, execution.Ready prepared history := by
  rcases steps_try_ask run with ⟨_, asking⟩ | ⟨asking, decision, rest, rfl, _, run⟩
  · have settling : (begin execution.outcomes execution.key).run.Only EngineOp.IsSettling :=
      settling_ask trivial
    exact absurd dispatches (settling_undispatched (only_pending settling asking))
  rcases steps_try_ask run with ⟨_, resolving⟩ | ⟨resolving, resolved, rest, rfl, _, run⟩
  · refine absurd dispatches (quiet_undispatched (only_pending (only_lift ?_) resolving))
    cases decision with
    | interrupted => exact only_bind (execution.quiet_emptyReceipt _) fun _ => trivial
    | _ => exact trivial
  cases resolved with
  | none =>
    obtain ⟨prepared, ready⟩ := granted_asks run dispatches
    refine ⟨prepared, ready_after ready fun e member => ?_⟩
    simp only [List.mem_append, member, or_true]
  | some terminal =>
    have settling : (do
        finish (execution.terminalAck terminal)
        pure ⟨[execution.accepted, execution.terminalAck terminal]⟩ :
          EngineM ExecuteReport).run.Only EngineOp.IsSettling :=
      only_try (settling_finish _) fun _ => trivial
    exact absurd dispatches (settling_undispatched (only_pending settling run))

theorem locked_asks {history : History} {op : EngineOp}
    {next : op.Answer → Prog Engine (Except ProtocolError ExecuteReport)}
    (run : Steps execution.locked.run history (.ask op next)) (dispatches : op.IsDispatch) :
    ∃ prepared, execution.Ready prepared history := by
  rcases steps_try_ask run with ⟨_, mending⟩ | ⟨mending, _, rest, rfl, _, run⟩
  · exact absurd dispatches (only_pending plain_repairTail mending).1
  rcases steps_try_ask run with ⟨_, claiming⟩ | ⟨claiming, result, rest, rfl, _, run⟩
  · exact absurd dispatches (only_pending (undispatched_claim _ _ _ _) claiming)
  cases result with
  | new =>
    obtain ⟨prepared, ready⟩ := claimed_asks run dispatches
    refine ⟨prepared, ready_after ready fun e member => ?_⟩
    simp only [List.mem_append, member, or_true]
  | replay acknowledgement =>
    have replaying : (do
        let acknowledgement ← reconcileInterrupted execution.outcomes acknowledgement
        pure ⟨[{ acknowledgement with replayed := true }]⟩ : EngineM ExecuteReport).run.Only
          EngineOp.IsSettling :=
      only_try (settling_reconcileInterrupted _ _) fun _ => trivial
    exact absurd dispatches (settling_undispatched (only_pending replaying run))
  | recoveredUnknown claim =>
    exact absurd dispatches (only_pending (execution.plain_recovered claim) run).1

end Execution

/-- A question that is neither asked before the lock is taken nor when it is released is
asked by the locked call. -/
theorem execute_asks {build : Build} {outcomes : Outcomes} {request : ActionRequest}
    {history : History} {op : EngineOp}
    {next : op.Answer → Prog Engine (Except ProtocolError ExecuteReport)}
    (run : Steps (execute build outcomes request).run history (.ask op next))
    (dispatches : op.IsDispatch) :
    ∃ (execution : Execution) (before inside : History) (next' : _),
      history = before ++ inside ∧ Opening request before execution ∧
      Steps execution.locked.run inside (.ask op next') := by
  have other {op' : EngineOp} (quiet : ¬ op'.IsDispatch) :
      (ask op').Only fun op : EngineOp => ¬ op.IsDispatch := ⟨quiet, fun _ => trivial⟩
  replace run := steps_try_ask run
  rcases run with ⟨_, asking⟩ | ⟨_, isDir, rest, rfl, asked, run⟩
  · exact absurd dispatches (only_pending (only_lift (other id)) asking)
  obtain ⟨_, asked, same⟩ := steps_lift.mp asked
  obtain rfl := Except.ok.inj same
  obtain rfl := steps_ask.mp asked
  replace run := steps_try_ask run
  rcases run with ⟨_, asking⟩ | ⟨_, _, rest, rfl, valid, run⟩
  · nomatch asking
  obtain ⟨rfl, _⟩ := steps_ret.mp valid
  replace run := steps_try_ask run
  rcases run with ⟨_, asking⟩ | ⟨_, actionHash, rest, rfl, hashed, run⟩
  · nomatch asking
  obtain ⟨rfl, _⟩ := steps_ret.mp hashed
  replace run := steps_try_ask run
  rcases run with ⟨_, asking⟩ | ⟨_, authority, rest, rfl, verified, run⟩
  · exact absurd dispatches (only_pending (other id) asking)
  obtain rfl := steps_ask.mp verified
  replace run := steps_try_ask run
  rcases run with ⟨_, asking⟩ | ⟨_, sessionIsolation, rest, rfl, asked, run⟩
  · exact absurd dispatches (only_pending (only_lift (other id)) asking)
  obtain ⟨_, asked, same⟩ := steps_lift.mp asked
  obtain rfl := Except.ok.inj same
  obtain rfl := steps_ask.mp asked
  replace run := steps_try_ask run
  rcases run with ⟨_, asking⟩ | ⟨_, _, rest, rfl, locked, run⟩
  · exact absurd dispatches (only_pending (other id) asking)
  obtain rfl := steps_ask.mp locked
  replace run := steps_bind_ask run
  rcases run with ⟨next', body⟩ | ⟨_, result, rest, rfl, _, run⟩
  · exact ⟨_, _, rest, next', rfl, opening_facts isDir authority, body⟩
  · rcases steps_bind_ask run with ⟨_, asking⟩ | ⟨_, _, _, _, _, returned⟩
    · exact absurd dispatches (only_pending (other id) asking)
    · nomatch returned

/-! ### A reported success -/

/-- The local ledger or the host's already had the terminal, and nothing was dispatched. -/
structure Told (history : History) (terminal : Terminal) : Prop where
  undispatched : Undispatched history
  told : (∃ records acknowledgement,
      (⟨.ledger .records, .ok records⟩ : Event Engine) ∈ history ∧
      LedgerRecord.terminal acknowledgement ∈ records ∧
      acknowledgement.state = .terminal terminal) ∨
    ∃ outcomes key, (⟨.begin outcomes key, .ok (.recorded terminal)⟩ : Event Engine) ∈ history

/-- A replayed terminal was found among the records. -/
theorem claim_replays {build : Build} {request : ActionRequest} {actionHash : String}
    {sessionIsolation : SessionIsolation} {history : History} {acknowledgement : ActionAck}
    (run : Steps (claim build request actionHash sessionIsolation).run history
      (.ret (.ok (.replay acknowledgement)))) :
    ∃ records, (⟨.ledger .records, .ok records⟩ : Event Engine) ∈ history ∧
      (scan request.operationId records).2 = some acknowledgement := by
  replace run := steps_try_ok run
  obtain ⟨reading, records, rest, rfl, read, run⟩ := run
  obtain rfl := steps_ask.mp read
  refine ⟨records, List.mem_append_left _ List.mem_cons_self, ?_⟩
  split at run
  next existing terminal found =>
    split at run
    · obtain ⟨_, same⟩ := steps_ret.mp run; contradiction
    · obtain ⟨_, same⟩ := steps_ret.mp run
      cases terminal with
      | none => nomatch Except.ok.inj same
      | some stored =>
        obtain rfl := ClaimResult.replay.inj (Except.ok.inj same)
        rw [found]
  next =>
    replace run := steps_try_ok run
    obtain ⟨_, _, rest, rfl, _, run⟩ := run
    replace run := steps_try_ok run
    obtain ⟨_, _, rest, rfl, _, run⟩ := run
    obtain ⟨_, same⟩ := steps_ret.mp run
    nomatch Except.ok.inj same

theorem told_append {first rest : History} {terminal : Terminal}
    (undispatched : Undispatched first) (told : Told rest terminal) :
    Told (first ++ rest) terminal where
  undispatched := undispatched_append undispatched told.undispatched
  told := by
    rcases told.told with ⟨records, acknowledgement, member, facts⟩ | ⟨outcomes, key, member⟩
    · exact .inl ⟨records, acknowledgement, List.mem_append_right _ member, facts⟩
    · exact .inr ⟨outcomes, key, List.mem_append_right _ member⟩

namespace Execution

variable {execution : Execution}

/-- How a locked call comes to report success. -/
inductive Succeeded (execution : Execution) (history : History) (receipt : Receipt) : Prop where
  | told : Told history (.succeeded receipt) → Succeeded execution history receipt
  | dispatched {prepared : Prepared} {dispatch : DispatchReceipt} {before after : History} :
      history = before ++ ⟨execution.dispatchOp prepared, .ok dispatch⟩ :: after →
      execution.Ready prepared before → execution.Succeeds prepared receipt after →
      Succeeded execution history receipt

theorem succeeded_append {first rest : History} {receipt : Receipt}
    (undispatched : Undispatched first) (succeeded : execution.Succeeded rest receipt) :
    execution.Succeeded (first ++ rest) receipt := by
  cases succeeded with
  | told told => exact .told (told_append undispatched told)
  | @dispatched prepared dispatch before after same ready succeeds =>
    subst same
    refine .dispatched (List.append_assoc _ _ _).symm (ready_after ready fun e member => ?_)
      succeeds
    exact List.mem_append_right _ member

theorem granted_succeeded {history : History} {report : ExecuteReport} {receipt : Receipt}
    (granted : execution.Granted history report)
    (succeeded : report.terminal? = some (.succeeded receipt)) :
    execution.Succeeded history receipt := by
  cases granted with
  | early _ failed same =>
    rw [succeeded] at same
    obtain rfl := Option.some.inj same
    contradiction
  | @dispatched prepared answer before after terminal effect cut _ _ ready settled reported =>
    have unchanged : terminal = .succeeded receipt := by
      rcases reported with same | ⟨_, same⟩ <;>
      · rw [succeeded] at same
        cases terminal <;> simp_all [persistenceUnknown]
    subst unchanged
    cases settled with
    | succeeded honest succeeds => exact .dispatched cut ready succeeds
    | withoutEffect _ failed => contradiction

theorem settling_told {history : History} {outcomes : Outcomes} {key : OutcomeKey}
    {terminal : Terminal} {rest : History} (settling : ∀ e ∈ rest, EngineOp.IsSettling e.op)
    (same : history = ⟨.begin outcomes key, .ok (.recorded terminal)⟩ :: rest) :
    Told history terminal := by
  subst same
  refine ⟨fun e member => ?_, .inr ⟨outcomes, key, List.mem_cons_self⟩⟩
  rcases List.mem_cons.mp member with rfl | later
  · exact id
  · exact settling_undispatched (settling e later)

/-- A known terminal is reported as it is. -/
theorem finish_told {outcomes : Outcomes} {key : OutcomeKey} {acknowledgements : List ActionAck}
    {terminal : Terminal} {rest : History} {report : ExecuteReport} {receipt : Receipt}
    (run : Steps (do
      finish (execution.terminalAck terminal)
      pure ⟨acknowledgements ++ [execution.terminalAck terminal]⟩ : EngineM ExecuteReport).run rest
        (.ret (.ok report)))
    (succeeded : report.terminal? = some (.succeeded receipt)) :
    terminal = .succeeded receipt ∧
      Told (⟨.begin outcomes key, .ok (.recorded terminal)⟩ :: rest) terminal := by
  replace run := steps_try_ok run
  obtain ⟨storing, _, rest, rfl, stored, run⟩ := run
  obtain ⟨rfl, same⟩ := steps_ret.mp run
  obtain rfl := Except.ok.inj same
  simp only [ExecuteReport.terminal?, List.getLast?_concat] at succeeded
  refine ⟨Option.some.inj succeeded, settling_told (fun e member => ?_) rfl⟩
  rw [List.append_nil] at member
  exact only_steps (settling_finish _) stored e member

theorem claimed_succeeded {history : History} {report : ExecuteReport} {receipt : Receipt}
    (run : Steps execution.claimed.run history (.ret (.ok report)))
    (succeeded : report.terminal? = some (.succeeded receipt)) :
    execution.Succeeded history receipt := by
  replace run := steps_try_ok run
  obtain ⟨asking, decision, rest, rfl, begun, run⟩ := run
  obtain rfl := steps_ask.mp begun
  replace run := steps_try_ok run
  obtain ⟨resolving, found, rest, rfl, resolved, run⟩ := run
  obtain ⟨_, resolved, same⟩ := steps_lift.mp resolved
  obtain rfl := Except.ok.inj same
  cases decision with
  | dispatch =>
    obtain ⟨rfl, rfl⟩ := steps_ret.mp resolved
    refine succeeded_append (fun e member => ?_) (granted_succeeded (granted_cases run) succeeded)
    obtain rfl := List.mem_singleton.mp member
    exact id
  | recorded terminal =>
    obtain ⟨rfl, rfl⟩ := steps_ret.mp resolved
    obtain ⟨rfl, told⟩ := @finish_told _ execution.outcomes execution.key [execution.accepted] _ _
      _ _ run succeeded
    exact .told told
  | interrupted =>
    replace resolved := steps_bind.mp resolved
    obtain ⟨_, _, _, rfl, _, resolved⟩ := resolved
    obtain ⟨rfl, rfl⟩ := steps_ret.mp resolved
    obtain ⟨impossible, _⟩ := @finish_told _ execution.outcomes execution.key
      [execution.accepted] _ _ _ _ run succeeded
    contradiction

theorem recovered_succeeded {claim : ClaimFacts} {history : History} {report : ExecuteReport}
    {receipt : Receipt} (run : Steps (execution.recovered claim).run history (.ret (.ok report)))
    (succeeded : report.terminal? = some (.succeeded receipt)) :
    execution.Succeeded history receipt := by
  replace run := steps_try_ok run
  obtain ⟨_, empty, rest, rfl, emptied, run⟩ := run
  obtain ⟨_, emptied, same⟩ := steps_lift.mp emptied
  obtain rfl := Except.ok.inj same
  refine succeeded_append (fun e member => quiet_undispatched
    (only_steps (execution.quiet_emptyReceipt _) emptied e member)) ?_
  replace run := steps_try_ok run
  obtain ⟨asking, decision, rest, rfl, begun, run⟩ := run
  obtain rfl := steps_ask.mp begun
  cases decision with
  | recorded terminal =>
    obtain ⟨rfl, told⟩ := @finish_told _ execution.outcomes execution.key [] _ _ _ _ run succeeded
    exact .told told
  | dispatch | interrupted =>
    obtain ⟨impossible, _⟩ := @finish_told _ execution.outcomes execution.key [] _ _ _ _ run
      succeeded
    contradiction

theorem replayed_succeeded {acknowledgement : ActionAck} {history : History}
    {report : ExecuteReport} {receipt : Receipt}
    (run : Steps (do
      let acknowledgement ← reconcileInterrupted execution.outcomes acknowledgement
      pure ⟨[{ acknowledgement with replayed := true }]⟩ : EngineM ExecuteReport).run history
        (.ret (.ok report)))
    (succeeded : report.terminal? = some (.succeeded receipt)) :
    Undispatched history ∧ (acknowledgement.state = .terminal (.succeeded receipt) ∨
      Told history (.succeeded receipt)) := by
  replace run := steps_try_ok run
  obtain ⟨reconciling, current, rest, rfl, reconciled, run⟩ := run
  obtain ⟨rfl, same⟩ := steps_ret.mp run
  obtain rfl := Except.ok.inj same
  have current_state : current.state = .terminal (.succeeded receipt) := by
    simp only [ExecuteReport.terminal?, List.getLast?_singleton, Option.bind_some] at succeeded
    cases state : current.state <;> simp_all
  have settling := only_steps (settling_reconcileInterrupted _ _) reconciled
  rw [List.append_nil]
  refine ⟨fun e member => settling_undispatched (settling e member), ?_⟩
  unfold reconcileInterrupted at reconciled
  split at reconciled
  · replace reconciled := steps_try_ok reconciled
    obtain ⟨_, decision, rest, rfl, begun, reconciled⟩ := reconciled
    obtain rfl := steps_ask.mp begun
    cases decision with
    | recorded terminal =>
      replace reconciled := steps_try_ok reconciled
      obtain ⟨storing, _, rest, rfl, stored, reconciled⟩ := reconciled
      obtain ⟨rfl, same⟩ := steps_ret.mp reconciled
      obtain rfl := Except.ok.inj same
      obtain rfl := AckState.terminal.inj current_state
      right
      refine settling_told (fun e member => ?_) rfl
      exact settling e (List.mem_cons_of_mem _ member)
    | dispatch | interrupted =>
      obtain ⟨_, same⟩ := steps_ret.mp reconciled
      obtain rfl := Except.ok.inj same
      exact .inl current_state
  · obtain ⟨_, same⟩ := steps_ret.mp reconciled
    obtain rfl := Except.ok.inj same
    exact .inl current_state

/-- A success is told by a ledger or comes from a dispatch that this call made. -/
theorem locked_succeeded {history : History} {report : ExecuteReport} {receipt : Receipt}
    (run : Steps execution.locked.run history (.ret (.ok report)))
    (succeeded : report.terminal? = some (.succeeded receipt)) :
    execution.Succeeded history receipt := by
  replace run := steps_try_ok run
  obtain ⟨mending, _, rest, rfl, mended, run⟩ := run
  refine succeeded_append (fun e member => (only_steps plain_repairTail mended e member).1) ?_
  replace run := steps_try_ok run
  obtain ⟨claiming, result, rest, rfl, claimed, run⟩ := run
  have undispatched : Undispatched claiming :=
    only_steps (undispatched_claim _ _ _ _) claimed
  cases result with
  | new => exact succeeded_append undispatched (claimed_succeeded run succeeded)
  | recoveredUnknown claim =>
    exact succeeded_append undispatched (recovered_succeeded run succeeded)
  | replay acknowledgement =>
    obtain ⟨clean, stored | told⟩ := replayed_succeeded run succeeded
    · obtain ⟨records, member, found⟩ := claim_replays claimed
      refine .told ⟨undispatched_append undispatched clean, .inl ⟨records, acknowledgement, ?_,
        scan_terminal_mem found, stored⟩⟩
      exact List.mem_append_left _ member
    · exact succeeded_append undispatched (.told told)

end Execution

/-! ### The whole call -/

/-- What was seen before a background action is dispatched, for the isolation the
executor reported. -/
inductive BackgroundAllowed (request : ActionRequest) (history : History) :
    SessionIsolation → Prop where
  | sharedDesktop {capabilities : Capabilities} {capability : ActionCapability}
      {deadlineAtMs : Int64} {context : String} :
      (⟨.capabilities, .ok capabilities⟩ : Event Engine) ∈ history →
      UniqueCapability capabilities request.action capability →
      capability.deliveryRoute = .targetAddressed → capability.backgroundSupport = .guarded →
      (⟨.contextHashWithBoundary deadlineAtMs, .ok context⟩ : Event Engine) ∈ history →
      BackgroundAllowed request history .sharedDesktop
  | hostIsolated {capabilities : Capabilities} {capability : ActionCapability} :
      (⟨.capabilities, .ok capabilities⟩ : Event Engine) ∈ history →
      UniqueCapability capabilities request.action capability →
      capability.backgroundSupport = .guarded ∨ capability.backgroundSupport = .hostIsolatedOnly →
      BackgroundAllowed request history .hostIsolated

/-- The desktop was sampled before the dispatch and after it, and was the same. -/
structure Preserved (history : History) (receipt : Receipt) : Prop where
  sampled : ∃ before key action target verification deadlineAtMs dispatch after deadline context,
    history = before ++ ⟨.dispatch key action target verification deadlineAtMs, .ok dispatch⟩ ::
      after ∧
    (⟨.contextHashWithBoundary deadline, .ok context⟩ : Event Engine) ∈ before ∧
    (⟨.contextHashWithBoundary deadline, .ok context⟩ : Event Engine) ∈ after
  unchanged : receipt.contextPreservation = .unchangedAtBoundaries

namespace Execution

variable {execution : Execution}

theorem ready_allowed {prepared : Prepared} {history : History}
    (ready : execution.Ready prepared history)
    (background : execution.request.interactionMode = .backgroundOnly) :
    BackgroundAllowed execution.request history execution.sessionIsolation := by
  obtain ⟨capabilities, capability, advertised, found, authorized⟩ := ready.capable
  have unique := strictActionCapability_unique found
  have authorized := authorized background
  cases isolation : execution.sessionIsolation with
  | unknown => exact absurd isolation ready.isolated
  | sharedDesktop =>
    have guarded : execution.isGuarded = true := by
      simp only [isGuarded, background, isolation, decide_true, Bool.and_self]
    obtain ⟨context, _, sampled⟩ := ready.sampled guarded
    simp only [isolation, backgroundCapabilityIsAuthorized, Bool.and_eq_true, decide_eq_true_eq]
      at authorized
    exact .sharedDesktop advertised unique authorized.1 authorized.2 sampled
  | hostIsolated =>
    simp only [isolation, backgroundCapabilityIsAuthorized, Bool.or_eq_true, decide_eq_true_eq]
      at authorized
    exact .hostIsolated advertised unique authorized

theorem succeeded_preserved {history : History} {receipt : Receipt}
    (succeeded : execution.Succeeded history receipt) (guarded : execution.isGuarded = true) :
    Told history (.succeeded receipt) ∨ Preserved history receipt := by
  cases succeeded with
  | told told => exact .inl told
  | @dispatched prepared dispatch before after cut ready succeeds =>
    right
    obtain ⟨context, first, sampled⟩ := ready.sampled guarded
    obtain ⟨unchanged, context', second, sampled'⟩ := succeeds.sampled guarded
    obtain rfl : context = context' := Option.some.inj (first.symm.trans second)
    exact ⟨⟨before, _, _, _, _, _, dispatch, after, _, context, cut, sampled, sampled'⟩, unchanged⟩

end Execution

theorem allowed_append {request : ActionRequest} {first rest : History}
    {isolation : SessionIsolation} (allowed : BackgroundAllowed request rest isolation) :
    BackgroundAllowed request (first ++ rest) isolation := by
  cases allowed with
  | sharedDesktop advertised unique route support sampled =>
    exact .sharedDesktop (List.mem_append_right _ advertised) unique route support
      (List.mem_append_right _ sampled)
  | hostIsolated advertised unique support =>
    exact .hostIsolated (List.mem_append_right _ advertised) unique support

/-- The isolation of the session is asked for once, before the lock is taken. -/
theorem isolation_asked {request : ActionRequest} {opening rest : History} {execution : Execution}
    (opened : Opening request opening execution) (inside : ∀ e ∈ rest, EngineOp.IsInside e.op)
    {isolation : SessionIsolation}
    (asked : (⟨.sessionIsolation, isolation⟩ : Event Engine) ∈ opening ++ rest) :
    isolation = execution.sessionIsolation := by
  rcases List.mem_append.mp asked with early | late
  · exact (opened.isolation isolation).mp early
  · exact (inside _ late).elim

theorem preserved_within {before inside after : History} {receipt : Receipt}
    (preserved : Preserved inside receipt) : Preserved (before ++ (inside ++ after)) receipt := by
  obtain ⟨⟨first, key, action, target, verification, deadlineAtMs, dispatch, rest, deadline,
    context, rfl, sampled, sampled'⟩, unchanged⟩ := preserved
  refine ⟨⟨before ++ first, key, action, target, verification, deadlineAtMs, dispatch,
    rest ++ after, deadline, context, ?_, List.mem_append_right _ sampled,
    List.mem_append_left _ sampled'⟩, unchanged⟩
  simp only [List.append_assoc, List.cons_append]

/-- What a ledger told inside the lock was told in the call. -/
theorem told_inside {request : ActionRequest} {opening inside : History} {execution : Execution}
    {terminal : Terminal} {outcome : Outcome} (opened : Opening request opening execution)
    (told : Told inside terminal) : Told (opening ++ (inside ++ [⟨.release outcome, ()⟩])) terminal := by
  refine told_append (fun e member => (opened.plain e member).1) ⟨?_, ?_⟩
  · refine undispatched_append told.undispatched fun e member => ?_
    obtain rfl := List.mem_singleton.mp member
    exact id
  · rcases told.told with ⟨records, acknowledgement, member, facts⟩ | ⟨outcomes, key, member⟩
    · exact .inl ⟨records, acknowledgement, List.mem_append_left _ member, facts⟩
    · exact .inr ⟨outcomes, key, List.mem_append_left _ member⟩

/-- A success that is reported without a dispatch was told by a ledger. -/
theorem execute_told {build : Build} {outcomes : Outcomes} {request : ActionRequest}
    {history : History} {report : ExecuteReport} {receipt : Receipt}
    (run : Steps (execute build outcomes request).run history (.ret (.ok report)))
    (succeeded : report.terminal? = some (.succeeded receipt))
    (undispatched : Undispatched history) : Told history (.succeeded receipt) := by
  obtain ⟨execution, opening, inside, rfl, _, opened, body⟩ := execute_cases run
  cases Execution.locked_succeeded body succeeded with
  | told told => exact told_inside opened told
  | @dispatched prepared dispatch before after cut =>
    subst cut
    have member : (⟨execution.dispatchOp prepared, .ok dispatch⟩ : Event Engine) ∈
        before ++ ⟨execution.dispatchOp prepared, .ok dispatch⟩ :: after :=
      List.mem_append_right _ List.mem_cons_self
    exact absurd trivial (undispatched _ (List.mem_append_right _ (List.mem_append_left _ member)))

/-- **Background safety**: whatever the environment answers, a background action is
dispatched only where it is allowed. A success on a shared desktop is told by a ledger
or comes from a dispatch between two equal samples of the desktop. -/
theorem execute_background_safe {build : Build} {outcomes : Outcomes} {request : ActionRequest}
    (background : request.interactionMode = .backgroundOnly) :
    (∀ history key action target verification deadlineAtMs next,
      Steps (execute build outcomes request).run history
        (.ask (.dispatch key action target verification deadlineAtMs) next) →
      ∃ isolation, BackgroundAllowed request history isolation ∧
        ∀ isolation', (⟨.sessionIsolation, isolation'⟩ : Event Engine) ∈ history ↔
          isolation' = isolation) ∧
    ∀ history report receipt, Steps (execute build outcomes request).run history
        (.ret (.ok report)) →
      report.terminal? = some (.succeeded receipt) →
      (⟨.sessionIsolation, .sharedDesktop⟩ : Event Engine) ∈ history →
      Told history (.succeeded receipt) ∨ Preserved history receipt := by
  constructor
  · intro history key action target verification deadlineAtMs next run
    obtain ⟨execution, opening, inside, next', rfl, opened, body⟩ := execute_asks run trivial
    obtain rfl := opened.requested
    obtain ⟨prepared, ready⟩ := Execution.locked_asks body trivial
    refine ⟨execution.sessionIsolation,
      allowed_append (Execution.ready_allowed ready background), fun isolation => ?_⟩
    constructor
    · exact isolation_asked opened (only_steps execution.inside_locked body)
    · intro same
      exact List.mem_append_left _ ((opened.isolation isolation).mpr same)
  · -- A success is the executor's, between two samples, or was told by a ledger.
    intro history report receipt run succeeded shared
    obtain ⟨execution, opening, inside, rfl, _, opened, body⟩ := execute_cases run
    obtain rfl := opened.requested
    have isolation : SessionIsolation.sharedDesktop = execution.sessionIsolation := by
      refine isolation_asked opened (List.forall_mem_append.mpr
        ⟨only_steps execution.inside_locked body, fun e member => ?_⟩) shared
      obtain rfl := List.mem_singleton.mp member
      trivial
    have guarded : execution.isGuarded = true := by
      simp only [Execution.isGuarded, background, ← isolation, decide_true, Bool.and_self]
    rcases Execution.succeeded_preserved (Execution.locked_succeeded body succeeded) guarded with
      told | preserved
    · exact .inl (told_inside opened told)
    · exact .inr (preserved_within preserved)

def isSharedDesktop : Event Engine → Bool
  | ⟨.sessionIsolation, isolation⟩ => isolation = .sharedDesktop
  | _ => false

theorem sharedDesktop_asked {history : History} (shared : history.any isSharedDesktop = true) :
    (⟨.sessionIsolation, .sharedDesktop⟩ : Event Engine) ∈ history := by
  obtain ⟨⟨op, answer⟩, member, shared⟩ := List.any_eq_true.mp shared
  cases op with
  | sessionIsolation =>
    obtain rfl : answer = .sharedDesktop := of_decide_eq_true shared
    exact member
  | _ => contradiction

def isDispatched : Event Engine → Bool
  | ⟨.dispatch .., _⟩ => true
  | _ => false

theorem isDispatched_iff (e : Event Engine) : isDispatched e = true ↔ e.op.IsDispatch := by
  obtain ⟨op, ans⟩ := e
  cases op <;> simp [isDispatched, EngineOp.IsDispatch]

/-- A background action that the bench performs on a shared desktop. -/
theorem execute_background_safe_bench :
    ∃ history report receipt,
      Steps (execute (benchBuild .backgroundOnly) .null (benchRequest .backgroundOnly)).run history
        (.ret (.ok report)) ∧
      report.terminal? = some (.succeeded receipt) ∧
      (⟨.sessionIsolation, .sharedDesktop⟩ : Event Engine) ∈ history ∧
      Preserved history receipt := by
  have facts : ((benchHistory .null .backgroundOnly .new).2.1.returned?.any
      (reportsThat ExecuteReport.succeeds)) = true ∧
      (benchHistory .null .backgroundOnly .new).1.any isSharedDesktop = true ∧
      (benchHistory .null .backgroundOnly .new).1.any isDispatched = true := by decide +kernel
  obtain ⟨report, succeeds, run⟩ := bench_reports facts.1
  obtain ⟨receipt, reported⟩ := succeeds_receipt succeeds
  have shared := sharedDesktop_asked facts.2.1
  obtain ⟨_, safe⟩ := @execute_background_safe (benchBuild .backgroundOnly) .null
    (benchRequest .backgroundOnly) rfl
  refine ⟨_, report, receipt, run, reported, shared, ?_⟩
  rcases safe _ report receipt run reported shared with told | preserved
  · obtain ⟨e, member, dispatched⟩ := List.any_eq_true.mp facts.2.2
    exact absurd ((isDispatched_iff e).mp dispatched) (told.undispatched e member)
  · exact preserved

/-! ### A success that nobody sampled -/

/-- What the host has recorded of the request: a success that says nothing of the desktop. -/
def unsampledReceipt : Receipt :=
  emptyReceipt (benchBuild .backgroundOnly) (benchRequest .backgroundOnly)
    (benchKey .backgroundOnly).actionHash .unknown .sharedDesktop 1 2

def benchRecorded : Bench :=
  { Bench.new with outcomes :=
      MemoryOutcomeLedger.new.record (benchKey .backgroundOnly) (.succeeded unsampledReceipt) }

def isSample : Event Engine → Bool
  | ⟨.contextHashWithBoundary _, _⟩ => true
  | _ => false

/-- A success that the host's ledger tells is reported on a shared desktop without a sample. -/
theorem background_unsampled :
    ¬ ∀ (build : Build) (outcomes : Outcomes) (request : ActionRequest),
      request.interactionMode = .backgroundOnly → ∀ history report receipt,
      Steps (execute build outcomes request).run history (.ret (.ok report)) →
      report.terminal? = some (.succeeded receipt) →
      (⟨.sessionIsolation, .sharedDesktop⟩ : Event Engine) ∈ history →
      Preserved history receipt := by
  intro always
  have facts : ((benchHistory .host .backgroundOnly benchRecorded).2.1.returned?.any
      (reportsThat ExecuteReport.succeeds)) = true ∧
      (benchHistory .host .backgroundOnly benchRecorded).1.any isSharedDesktop = true ∧
      (benchHistory .host .backgroundOnly benchRecorded).1.any isSample = false := by
    decide +kernel
  obtain ⟨report, succeeds, run⟩ := bench_reports facts.1
  obtain ⟨receipt, reported⟩ := succeeds_receipt succeeds
  have preserved := always (benchBuild .backgroundOnly) .host (benchRequest .backgroundOnly) rfl _
    report receipt run reported (sharedDesktop_asked facts.2.1)
  obtain ⟨before, _, _, _, _, _, _, _, _, _, cut, sampled, _⟩ := preserved.sampled
  -- the sample before the dispatch would be in the history
  have unsampled := List.any_eq_false.mp facts.2.2
  rw [cut] at unsampled
  exact unsampled _ (List.mem_append_left _ sampled) rfl

end Praefectus
