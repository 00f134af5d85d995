import Praefectus.Engine.Bench
import Praefectus.Engine.Execution

/-!
# No false success

A call that claimed its operation anew reports success only after a dispatch that
returned and checks that passed, and reports that nothing happened only if nothing
was dispatched or the executor said that it had no effect.
-/

namespace Praefectus

open Prog

namespace Execution

variable {execution : Execution}

theorem settled_then {prepared : Prepared} {answer : Except DispatchError DispatchReceipt}
    {after rest : History} {terminal : Terminal} {effect : Bool}
    (settled : execution.Settled prepared answer after terminal effect)
    (unchecked : ∀ e ∈ rest, e.op.IsUnchecked) :
    execution.Settled prepared answer (after ++ rest) terminal effect := by
  cases settled with
  | succeeded honest succeeds => exact .succeeded honest (succeeds_then succeeds unchecked)
  | unknown unknown honest => exact .unknown unknown honest
  | withoutEffect known clean => exact .withoutEffect known clean

/-- The ways a granted call ends in a report. -/
inductive Granted (execution : Execution) (history : History) (report : ExecuteReport) : Prop where
  | early {terminal : Terminal} : Undispatched history → terminal.isWithoutEffect = true →
      report.terminal? = some terminal → Granted execution history report
  | dispatched {prepared : Prepared} {answer : Except DispatchError DispatchReceipt}
      {before after : History} {terminal : Terminal} {effect : Bool} :
      history = before ++ ⟨execution.dispatchOp prepared, answer⟩ :: after →
      Undispatched before → Undispatched after → execution.Ready prepared before →
      execution.Settled prepared answer after terminal effect →
      (report.terminal? = some terminal ∨
        effect = true ∧ report.terminal? = some (persistenceUnknown terminal)) →
      Granted execution history report

theorem granted_cases {history : History} {report : ExecuteReport}
    (run : Steps execution.granted.run history (.ret (.ok report))) :
    execution.Granted history report := by
  replace run := steps_try_ok run
  obtain ⟨way, result, rest, rfl, prepared, run⟩ := run
  obtain ⟨_, prepared, same⟩ := steps_lift.mp prepared
  obtain rfl := Except.ok.inj same
  have quiet := only_steps execution.quiet_prepare prepared
  have undispatched : Undispatched way := fun e member => quiet_undispatched (quiet e member)
  cases result with
  | error terminal =>
    have settling := only_steps (settling_finishWithoutEffect _ _) run
    exact .early
      (undispatched_append undispatched fun e member => settling_undispatched (settling e member))
      (prepare_exits way terminal prepared) (finishWithoutEffect_report run)
  | ok known =>
    have ready := prepare_ready prepared
    replace run := steps_try_ok run
    obtain ⟨action, ⟨terminal, effect⟩, rest, rfl, dispatched, run⟩ := run
    obtain ⟨_, dispatched, same⟩ := steps_lift.mp dispatched
    obtain rfl := Except.ok.inj same
    obtain ⟨startedAtMs, answer, after, rfl, observed, settled⟩ := dispatchAction_cases dispatched
    have cut : way ++ (⟨.now, startedAtMs⟩ :: ⟨execution.dispatchOp known, answer⟩ :: after ++ rest)
        = (way ++ [⟨.now, startedAtMs⟩]) ++
          ⟨execution.dispatchOp known, answer⟩ :: (after ++ rest) := by
      simp only [List.append_assoc, List.cons_append, List.nil_append]
    have before : Undispatched (way ++ [⟨.now, startedAtMs⟩]) :=
      undispatched_append undispatched fun e member => by
        obtain rfl := List.mem_singleton.mp member
        exact id
    have ready' := ready_after ready fun e member =>
      (List.mem_append_left [(⟨.now, startedAtMs⟩ : Event Engine)] member)
    have later (settling : ∀ e ∈ rest, EngineOp.IsSettling e.op) : Undispatched (after ++ rest) :=
      undispatched_append (fun e member => quiet_undispatched (observed e member))
        fun e member => settling_undispatched (settling e member)
    cases effect with
    | true =>
      have settling := only_steps (settling_finishWithEffect _) run
      refine .dispatched cut before (later settling) ready'
        (settled_then settled fun e member => settling_unchecked (settling e member)) ?_
      rcases finishWithEffect_report run with same | same
      · exact .inl same
      · exact .inr ⟨rfl, same⟩
    | false =>
      have settling := only_steps (settling_finishWithoutEffect _ _) run
      exact .dispatched cut before (later settling) ready'
        (settled_then settled fun e member => settling_unchecked (settling e member))
        (.inl (finishWithoutEffect_report run))

end Execution

/-! ### The whole call -/

/-- The answers of the outcome ledger that records nothing and always grants dispatch. -/
def NullAnswers (history : History) : Prop :=
  (∀ outcomes key answer, (⟨.begin outcomes key, answer⟩ : Event Engine) ∈ history →
    answer = .ok .dispatch) ∧
  ∀ outcomes key terminal answer,
    (⟨.record outcomes key terminal, answer⟩ : Event Engine) ∈ history → answer = .ok ()

def EngineOp.IsClaim : EngineOp → Prop
  | .ledger (.append (.claim ..)) => True
  | _ => False

/-- The call stored a claim: its report is neither replayed nor recovered. -/
def ClaimedAnew (history : History) : Prop := ∃ e ∈ history, e.op.IsClaim

/-- The earlier of the deadline of the request and the end of its authority. -/
def IsEffectDeadline (request : ActionRequest) (history : History) (deadlineAtMs : Int64) : Prop :=
  ∃ actionHash authority,
    (⟨.verifyAuthority request actionHash, .ok authority⟩ : Event Engine) ∈ history ∧
    deadlineAtMs = min request.deadlineAtMs authority.expiresAtMs

theorem settling_not_claim {op : EngineOp} (settling : op.IsSettling) : ¬ op.IsClaim := by
  unfold EngineOp.IsSettling at settling
  split at settling <;> simp_all [EngineOp.IsClaim]

theorem quiet_not_claim {op : EngineOp} (quiet : op.IsQuiet) : ¬ op.IsClaim := by
  cases op <;> simp_all [EngineOp.IsQuiet, EngineOp.IsClaim]

/-- Questions other than a dispatch and the storing of a claim. -/
def EngineOp.IsPlain (op : EngineOp) : Prop := ¬ op.IsDispatch ∧ ¬ op.IsClaim

theorem settling_plain {op : EngineOp} (settling : op.IsSettling) : op.IsPlain :=
  ⟨settling_undispatched settling, settling_not_claim settling⟩

theorem quiet_plain {op : EngineOp} (quiet : op.IsQuiet) : op.IsPlain :=
  ⟨quiet_undispatched quiet, quiet_not_claim quiet⟩

theorem plain_repairTail : repairTail.run.Only EngineOp.IsPlain := ⟨⟨id, id⟩, fun _ => trivial⟩

theorem plain_records : records.run.Only EngineOp.IsPlain := ⟨⟨id, id⟩, fun _ => trivial⟩

theorem plain_not_anew {history : History} (plain : ∀ e ∈ history, EngineOp.IsPlain e.op) :
    ¬ ClaimedAnew history :=
  fun ⟨e, member, claims⟩ => (plain e member).2 claims

namespace Execution

variable {execution : Execution}

theorem plain_recovered (claim : ClaimFacts) :
    (execution.recovered claim).run.Only EngineOp.IsPlain := by
  refine only_try (only_lift (only_mono (execution.quiet_emptyReceipt _) fun _ => quiet_plain))
    fun receipt => ?_
  refine only_try (only_mono (settling_ask trivial) fun _ => settling_plain) fun decision => ?_
  have finishing (terminal : Terminal) :
      (do
        finish (execution.terminalAck terminal)
        pure ⟨[execution.terminalAck terminal]⟩ : EngineM ExecuteReport).run.Only EngineOp.IsPlain :=
    only_try (only_mono (settling_finish _) fun _ => settling_plain) fun _ => trivial
  cases decision <;> exact finishing _

/-- The part of a locked call up to its claim. -/
theorem claim_cases {build : Build} {request : ActionRequest} {actionHash : String}
    {sessionIsolation : SessionIsolation} {history : History} {result : ClaimResult}
    (run : Steps (claim build request actionHash sessionIsolation).run history (.ret (.ok result))) :
    Undispatched history ∧
      ((result = .new) ∨
        (result ≠ .new ∧ ∀ e ∈ history, EngineOp.IsPlain e.op)) := by
  replace run := steps_try_ok run
  obtain ⟨reading, found, rest, rfl, read, run⟩ := run
  have plain : ∀ e ∈ reading, EngineOp.IsPlain e.op :=
    only_steps plain_records read
  split at run
  next existing terminal _ =>
    split at run
    · obtain ⟨_, same⟩ := steps_ret.mp run; contradiction
    · obtain ⟨rfl, same⟩ := steps_ret.mp run
      obtain rfl := Except.ok.inj same
      have old : terminal.elim (ClaimResult.recoveredUnknown existing) ClaimResult.replay ≠ .new := by
        cases terminal <;> exact fun same => nomatch same
      rw [List.append_nil]
      exact ⟨fun e member => (plain e member).1, .inr ⟨old, plain⟩⟩
  next =>
    replace run := steps_try_ok run
    obtain ⟨clock, claimedAtMs, rest, rfl, read, run⟩ := run
    replace run := steps_try_ok run
    obtain ⟨storing, _, rest, rfl, stored, run⟩ := run
    obtain ⟨rfl, same⟩ := steps_ret.mp run
    obtain rfl := Except.ok.inj same
    refine ⟨?_, .inl rfl⟩
    obtain ⟨_, read, same⟩ := steps_lift.mp read
    obtain rfl := Except.ok.inj same
    obtain rfl := steps_ask.mp read
    obtain rfl := steps_ask.mp stored
    refine undispatched_append (fun e member => (plain e member).1) fun e member => ?_
    simp only [List.append_nil, List.singleton_append, List.mem_cons, List.not_mem_nil, or_false]
      at member
    rcases member with rfl | rfl <;> exact id

/-- A locked call that claimed anew went on to ask the host. -/
theorem locked_anew {history : History} {report : ExecuteReport}
    (run : Steps execution.locked.run history (.ret (.ok report))) (anew : ClaimedAnew history) :
    ∃ before rest, history = before ++ rest ∧ Undispatched before ∧
      Steps execution.claimed.run rest (.ret (.ok report)) := by
  replace run := steps_try_ok run
  obtain ⟨mending, _, rest, rfl, mended, run⟩ := run
  have repaired : ∀ e ∈ mending, EngineOp.IsPlain e.op :=
    only_steps plain_repairTail mended
  replace run := steps_try_ok run
  obtain ⟨claiming, result, rest, rfl, claimed, run⟩ := run
  obtain ⟨undispatched, cases⟩ := claim_cases claimed
  have others (plain : ∀ e ∈ claiming, EngineOp.IsPlain e.op)
      (rest' : ∀ e ∈ rest, EngineOp.IsPlain e.op) : False :=
    plain_not_anew (List.forall_mem_append.mpr ⟨repaired, List.forall_mem_append.mpr ⟨plain, rest'⟩⟩)
      anew
  cases result with
  | new =>
    refine ⟨mending ++ claiming, rest, (List.append_assoc _ _ _).symm, ?_, run⟩
    exact undispatched_append (fun e member => (repaired e member).1) undispatched
  | replay acknowledgement =>
    rcases cases with same | ⟨_, plain⟩
    · contradiction
    · refine (others plain ?_).elim
      have reconciling := only_mono (settling_reconcileInterrupted execution.outcomes
        acknowledgement) fun _ => settling_plain
      have replaying : (do
          let acknowledgement ← reconcileInterrupted execution.outcomes acknowledgement
          pure ⟨[{ acknowledgement with replayed := true }]⟩ : EngineM ExecuteReport).run.Only
            EngineOp.IsPlain := only_try reconciling fun _ => trivial
      exact only_steps replaying run
  | recoveredUnknown claim =>
    rcases cases with same | ⟨_, plain⟩
    · contradiction
    · exact (others plain (only_steps (execution.plain_recovered claim) run)).elim

/-- A null outcome ledger grants every claim. -/
theorem claimed_null {history : History} {report : ExecuteReport}
    (run : Steps execution.claimed.run history (.ret (.ok report))) (null : NullAnswers history) :
    ∃ before rest, history = before ++ rest ∧ Undispatched before ∧
      Steps execution.granted.run rest (.ret (.ok report)) := by
  replace run := steps_try_ok run
  obtain ⟨asking, decision, rest, rfl, begun, run⟩ := run
  obtain rfl := steps_ask.mp begun
  have granted := null.1 _ _ _ (List.mem_append_left _ List.mem_cons_self)
  obtain rfl : decision = .dispatch := Except.ok.inj granted
  replace run := steps_try_ok run
  obtain ⟨nothing, terminal, rest, rfl, resolved, run⟩ := run
  obtain ⟨_, resolved, same⟩ := steps_lift.mp resolved
  obtain rfl := Except.ok.inj same
  obtain ⟨rfl, rfl⟩ := steps_ret.mp resolved
  refine ⟨[_], rest, rfl, ?_, run⟩
  intro e member
  obtain rfl := List.mem_singleton.mp member
  exact id

end Execution

/-- What was asked before the lock was taken. -/
structure Opening (request : ActionRequest) (history : History) (execution : Execution) : Prop where
  requested : execution.request = request
  deadline : IsEffectDeadline request history execution.deadlineAtMs
  isolation : ∀ isolation, (⟨.sessionIsolation, isolation⟩ : Event Engine) ∈ history ↔
    isolation = execution.sessionIsolation
  plain : ∀ e ∈ history, EngineOp.IsPlain e.op

theorem opening_facts {build : Build} {outcomes : Outcomes} {request : ActionRequest}
    {actionHash : String} {sessionIsolation : SessionIsolation} (isDir : PathBuf → Bool)
    (authority : VerifiedAuthority) :
    Opening request
      [⟨.directories, isDir⟩, ⟨.verifyAuthority request actionHash, .ok authority⟩,
        ⟨.sessionIsolation, sessionIsolation⟩,
        ⟨.lock (some (min request.deadlineAtMs authority.expiresAtMs)), .ok ()⟩]
      ⟨build, outcomes, request, actionHash, sessionIsolation,
        min request.deadlineAtMs authority.expiresAtMs⟩ where
  requested := rfl
  deadline := by
    refine ⟨actionHash, authority, ?_, rfl⟩
    simp only [List.mem_cons, true_or, or_true]
  isolation isolation := by simp
  plain := by simp [EngineOp.IsPlain, EngineOp.IsDispatch, EngineOp.IsClaim]

/-- An execution with a report took the lock, and gave it back last. -/
theorem execute_cases {build : Build} {outcomes : Outcomes} {request : ActionRequest}
    {history : History} {report : ExecuteReport}
    (run : Steps (execute build outcomes request).run history (.ret (.ok report))) :
    ∃ (execution : Execution) (before inside : History),
      history = before ++ (inside ++ [⟨.release (.executed execution.key (.ok report)), ()⟩]) ∧
      (execution.outcomes = outcomes ∧ execution.build = build ∧
        before.map Event.op = [.directories, .verifyAuthority request execution.actionHash,
          .sessionIsolation, .lock (some execution.deadlineAtMs)]) ∧
      Opening request before execution ∧
      Steps execution.locked.run inside (.ret (.ok report)) := by
  replace run := steps_try_ok run
  obtain ⟨_, isDir, rest, rfl, asked, run⟩ := run
  obtain ⟨_, asked, same⟩ := steps_lift.mp asked
  obtain rfl := Except.ok.inj same
  obtain rfl := steps_ask.mp asked
  replace run := steps_try_ok run
  obtain ⟨_, _, rest, rfl, valid, run⟩ := run
  obtain ⟨rfl, _⟩ := steps_ret.mp valid
  replace run := steps_try_ok run
  obtain ⟨_, actionHash, rest, rfl, hashed, run⟩ := run
  obtain ⟨rfl, _⟩ := steps_ret.mp hashed
  replace run := steps_try_ok run
  obtain ⟨_, authority, rest, rfl, verified, run⟩ := run
  obtain rfl := steps_ask.mp verified
  replace run := steps_try_ok run
  obtain ⟨_, sessionIsolation, rest, rfl, asked, run⟩ := run
  obtain ⟨_, asked, same⟩ := steps_lift.mp asked
  obtain rfl := Except.ok.inj same
  obtain rfl := steps_ask.mp asked
  replace run := steps_try_ok run
  obtain ⟨_, _, rest, rfl, locked, run⟩ := run
  obtain rfl := steps_ask.mp locked
  replace run := steps_bind.mp run
  obtain ⟨inside, result, rest, rfl, body, run⟩ := run
  replace run := steps_bind.mp run
  obtain ⟨_, _, rest, rfl, released, run⟩ := run
  obtain rfl := steps_ask.mp released
  obtain ⟨rfl, rfl⟩ := steps_ret.mp run
  exact ⟨⟨build, outcomes, request, actionHash, sessionIsolation, _⟩, _, inside, rfl,
    ⟨rfl, rfl, rfl⟩, opening_facts isDir authority, body⟩

/-- What a report says about the dispatch, and what the dispatch says about it. -/
structure EffectSound (request : ActionRequest) (history : History) (terminal : Terminal) :
    Prop where
  succeeded : ∀ receipt, terminal = .succeeded receipt →
    ∃ before key action target verification deadlineAtMs dispatch after,
      history = before ++ ⟨.dispatch key action target verification deadlineAtMs, .ok dispatch⟩ ::
        after ∧
      IsEffectDeadline request history deadlineAtMs ∧ Unstopped deadlineAtMs after ∧
      receipt.contextPreservation ≠ .changed ∧ receipt.contextPreservation ≠ .unavailable ∧
      (request.verification ≠ .none → receipt.effect = .verified)
  withoutEffect : terminal.isWithoutEffect = true →
    ∀ key action target verification deadlineAtMs answer,
      (⟨.dispatch key action target verification deadlineAtMs, answer⟩ : Event Engine) ∈ history →
      ∃ error, answer = .error error ∧ error.effect ≠ .unknown
  withEffect : ∀ key action target verification deadlineAtMs answer,
    (⟨.dispatch key action target verification deadlineAtMs, answer⟩ : Event Engine) ∈ history →
    (∀ error, answer = .error error → error.effect = .unknown) →
    (∃ receipt, terminal = .succeeded receipt) ∨
      ∃ receipt message, terminal = .outcomeUnknown receipt message
  unverifiable : request.verification = .snapshotChanged →
    ∀ receipt, terminal.receipt? = some receipt → receipt.effect ≠ .verified

theorem receipt_withoutEffect {terminal : Terminal} (clean : terminal.isWithoutEffect = true) :
    terminal.receipt? = none := by
  cases terminal <;> simp_all [Terminal.isWithoutEffect, Terminal.receipt?]

/-- A dispatch event in a history with one dispatch is that one. -/
theorem only_dispatch {before after : History} {e e' : Event Engine}
    (clean : Undispatched before) (clean' : Undispatched after)
    (member : e' ∈ before ++ e :: after) (dispatches : e'.op.IsDispatch) : e' = e := by
  rcases List.mem_append.mp member with early | late
  · exact absurd dispatches (clean e' early)
  · rcases List.mem_cons.mp late with same | late
    · exact same
    · exact absurd dispatches (clean' e' late)

theorem isLost_false {preservation : ContextPreservation} (kept : preservation.isLost = false) :
    preservation ≠ .changed ∧ preservation ≠ .unavailable := by
  cases preservation <;> simp_all [ContextPreservation.isLost]

theorem sound_early {request : ActionRequest} {history : History} {terminal : Terminal}
    (quiet : Undispatched history) (clean : terminal.isWithoutEffect = true) :
    EffectSound request history terminal where
  succeeded := by
    rintro receipt rfl
    contradiction
  withoutEffect _ _ _ _ _ _ _ member := absurd trivial (quiet _ member)
  withEffect _ _ _ _ _ _ member _ := absurd trivial (quiet _ member)
  unverifiable _ receipt found := by
    rw [receipt_withoutEffect clean] at found
    contradiction

namespace Execution

variable {execution : Execution}

theorem sound_settled {prepared : Prepared} {answer : Except DispatchError DispatchReceipt}
    {before after : History} {terminal : Terminal} {effect : Bool}
    (clean : Undispatched before) (clean' : Undispatched after)
    (settled : execution.Settled prepared answer after terminal effect)
    (deadline : IsEffectDeadline execution.request
      (before ++ ⟨execution.dispatchOp prepared, answer⟩ :: after) execution.deadlineAtMs) :
    EffectSound execution.request (before ++ ⟨execution.dispatchOp prepared, answer⟩ :: after)
      terminal := by
  have answered {key action target verification deadlineAtMs answer'}
      (member : (⟨.dispatch key action target verification deadlineAtMs, answer'⟩ : Event Engine) ∈
        before ++ ⟨execution.dispatchOp prepared, answer⟩ :: after) : answer' = answer := by
    have same := only_dispatch clean clean' member trivial
    cases same
    rfl
  cases settled with
  | @succeeded dispatch _ receipt honest succeeds =>
    obtain ⟨changed, unavailable⟩ := isLost_false succeeds.kept
    refine ⟨?_, fun failed => (nomatch failed), fun _ _ _ _ _ _ _ _ => .inl ⟨receipt, rfl⟩, ?_⟩
    · rintro _ ⟨rfl⟩
      refine ⟨before, _, _, _, _, _, dispatch, after, rfl, deadline, succeeds.unstopped, changed,
        unavailable, fun asked => succeeds.verified ?_⟩
      cases policy : execution.request.verification <;> simp_all [VerificationPolicy.isNone]
    · rintro unverifiable _ ⟨rfl⟩
      exact honest unverifiable
  | @unknown _ _ receipt message unknown honest =>
    refine ⟨fun _ same => (nomatch same), fun failed => (nomatch failed),
      fun _ _ _ _ _ _ _ _ => .inr ⟨receipt, message, rfl⟩, ?_⟩
    rintro unverifiable _ ⟨rfl⟩
    exact honest unverifiable
  | @withoutEffect error _ _ known failed =>
    refine ⟨?_, fun _ _ _ _ _ _ _ member => ⟨error, answered member, known⟩, ?_, ?_⟩
    · rintro receipt rfl
      contradiction
    · intro _ _ _ _ _ answer member unknown
      exact absurd (unknown error (answered member)) known
    · intro _ receipt found
      rw [receipt_withoutEffect failed] at found
      contradiction

/-- The terminal that says a success may not be stored is as sound as the success. -/
theorem sound_persistenceUnknown {history : History} {terminal : Terminal}
    (sound : EffectSound execution.request history terminal) :
    EffectSound execution.request history (persistenceUnknown terminal) := by
  cases terminal with
  | succeeded receipt =>
    refine ⟨fun _ same => (nomatch same), fun failed => (nomatch failed),
      fun _ _ _ _ _ _ _ _ => .inr ⟨receipt, _, rfl⟩, ?_⟩
    rintro unverifiable _ ⟨rfl⟩
    exact sound.unverifiable unverifiable _ rfl
  | _ => exact sound

/-- Where the way to the grant dispatched nothing, what was granted is sound for all of
the history. -/
theorem sound_granted {before inside after : History} {report : ExecuteReport}
    (granted : execution.Granted inside report) (clean : Undispatched before)
    (clean' : Undispatched after) (unchecked : ∀ e ∈ after, e.op.IsUnchecked)
    (deadline : IsEffectDeadline execution.request (before ++ (inside ++ after))
      execution.deadlineAtMs) :
    ∃ terminal, report.terminal? = some terminal ∧
      EffectSound execution.request (before ++ (inside ++ after)) terminal := by
  cases granted with
  | early quiet failed same =>
    exact ⟨_, same, sound_early
      (undispatched_append clean (undispatched_append quiet clean')) failed⟩
  | @dispatched prepared answer way rest terminal effect cut quiet quiet' ready settled reported =>
    subst cut
    have whole : before ++ (way ++ ⟨execution.dispatchOp prepared, answer⟩ :: rest ++ after) =
        (before ++ way) ++ ⟨execution.dispatchOp prepared, answer⟩ :: (rest ++ after) := by
      simp only [List.append_assoc, List.cons_append]
    rw [whole] at deadline ⊢
    have sound := sound_settled (undispatched_append clean quiet)
      (undispatched_append quiet' clean') (settled_then settled unchecked) deadline
    rcases reported with same | ⟨_, same⟩
    · exact ⟨terminal, same, sound⟩
    · exact ⟨_, same, sound_persistenceUnknown sound⟩

end Execution

/-- **No false success**: a report of a call that claimed its operation anew, with the
default outcome ledger, is sound whatever the executor, the clock and the cancellation
token answered. -/
theorem execute_effect_sound {build : Build} {request : ActionRequest} {history : History}
    {report : ExecuteReport}
    (run : Steps (execute build .null request).run history (.ret (.ok report)))
    (null : NullAnswers history) (anew : ClaimedAnew history) :
    ∃ terminal, report.terminal? = some terminal ∧ EffectSound request history terminal := by
  obtain ⟨execution, opening, inside, rfl, _, opened, locked⟩ := execute_cases run
  obtain rfl := opened.requested
  have quiet : Undispatched opening := fun e member => (opened.plain e member).1
  have anew : ClaimedAnew inside := by
    obtain ⟨e, member, claims⟩ := anew
    rcases List.mem_append.mp member with early | late
    · exact absurd claims (opened.plain e early).2
    rcases List.mem_append.mp late with found | released
    · exact ⟨e, found, claims⟩
    · obtain rfl := List.mem_singleton.mp released
      exact claims.elim
  obtain ⟨claiming, rest, rfl, clean, claimed⟩ := Execution.locked_anew locked anew
  have null : NullAnswers rest := by
    refine ⟨fun outcomes key answer member => null.1 outcomes key answer ?_,
      fun outcomes key terminal answer member => null.2 outcomes key terminal answer ?_⟩ <;>
    simp only [List.mem_append, member, true_or, or_true]
  obtain ⟨asking, rest, rfl, clean', granted⟩ := Execution.claimed_null claimed null
  have released : Undispatched
      [⟨.release (.executed execution.key (.ok report)), ()⟩] := fun e member => by
    obtain rfl := List.mem_singleton.mp member
    exact id
  have unchecked : ∀ e ∈ [(⟨.release (.executed execution.key (.ok report)), ()⟩ : Event Engine)],
      e.op.IsUnchecked := fun e member => by
    obtain rfl := List.mem_singleton.mp member
    trivial
  obtain ⟨actionHash, authority, member, earlier⟩ := opened.deadline
  have sound := Execution.sound_granted (Execution.granted_cases granted)
    (undispatched_append quiet (undispatched_append clean clean')) released unchecked
    ⟨actionHash, authority, by simp only [List.mem_append, member, true_or], earlier⟩
  simpa only [List.append_assoc] using sound

/-! ### A run on the bench -/

def isNullAnswer : Event Engine → Bool
  | ⟨.begin .., answer⟩ => answer = .ok .dispatch
  | ⟨.record .., answer⟩ => (answer matches .ok ())
  | _ => true

theorem nullAnswers_iff (history : History) :
    NullAnswers history ↔ history.all isNullAnswer = true := by
  rw [List.all_eq_true]
  constructor
  · rintro ⟨begun, recorded⟩ ⟨op, answer⟩ member
    cases op with
    | begin outcomes key =>
      obtain rfl := begun outcomes key answer member
      rfl
    | record outcomes key terminal =>
      obtain rfl := recorded outcomes key terminal answer member
      rfl
    | _ => rfl
  · intro all
    refine ⟨fun outcomes key answer member => of_decide_eq_true (all _ member),
      fun outcomes key terminal answer member => ?_⟩
    have answered := all _ member
    cases answer with
    | ok => rfl
    | error => contradiction

instance (history : History) : Decidable (NullAnswers history) :=
  decidable_of_iff _ (nullAnswers_iff history).symm

instance : DecidablePred EngineOp.IsClaim
  | .ledger (.append (.claim ..)) => .isTrue trivial
  | .ledger (.append (.terminal _)) | .ledger .repairTail | .ledger .records | .directories
  | .verifyAuthority .. | .sessionIsolation | .capabilities | .observeWithBoundary ..
  | .resolveWithBoundary .. | .contextHashWithBoundary _ | .dispatch .. | .isCancelled | .now
  | .lock _ | .release _ | .trajectory _ | .begin .. | .record .. => .isFalse id

instance (history : History) : Decidable (ClaimedAnew history) :=
  inferInstanceAs (Decidable (∃ e ∈ history, e.op.IsClaim))

def ExecuteReport.succeeds (report : ExecuteReport) : Bool := report.terminal? matches some (.succeeded _)

theorem succeeds_receipt {report : ExecuteReport} (succeeds : report.succeeds = true) :
    ∃ receipt, report.terminal? = some (.succeeded receipt) := by
  unfold ExecuteReport.succeeds at succeeds
  split at succeeds
  · exact ⟨_, by assumption⟩
  · contradiction

theorem execute_effect_sound_bench :
    ∃ history report receipt,
      Steps (execute (benchBuild .interactive) .null (benchRequest .interactive)).run history
        (.ret (.ok report)) ∧
      report.terminal? = some (.succeeded receipt) ∧
      EffectSound (benchRequest .interactive) history (.succeeded receipt) := by
  have facts : ((benchHistory .null .interactive .new).2.1.returned?.any
      (reportsThat ExecuteReport.succeeds)) = true ∧
      NullAnswers (benchHistory .null .interactive .new).1 ∧
      ClaimedAnew (benchHistory .null .interactive .new).1 := by decide +kernel
  obtain ⟨checked, null, anew⟩ := facts
  obtain ⟨report, succeeds, run⟩ := bench_reports checked
  obtain ⟨receipt, reported⟩ := succeeds_receipt succeeds
  obtain ⟨terminal, reported', sound⟩ := execute_effect_sound run null anew
  obtain rfl := Option.some.inj (reported.symm.trans reported')
  exact ⟨_, report, receipt, run, reported, sound⟩

end Praefectus
