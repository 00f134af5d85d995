import Praefectus.Engine.BackgroundSafety

/-!
# How a call ends

A call ends before it holds the lock, or with what the locked call came to. An error of the
locked call was the answer to one of its questions, unless the ledger holds a claim of its
operation with another action hash.
-/

/-! ### Errors that are passed on -/

namespace Prog

variable {I : Interface} {α β ε : Type} {fails : Event I → ε → Prop}

/-- An error of the program was the answer to one of its questions. -/
def Relays (fails : Event I → ε → Prop) (x : ExceptT ε (Prog I) α) : Prop :=
  ∀ trace e, Steps x.run trace (.ret (.error e)) → ∃ event ∈ trace, fails event e

theorem relays_pure {a : α} : Relays fails (pure a : ExceptT ε (Prog I) α) := by
  intro trace e run
  obtain ⟨_, same⟩ := steps_ret.mp run
  cases same

theorem relays_lift {p : Prog I α} : Relays fails (monadLift p : ExceptT ε (Prog I) α) := by
  intro trace e run
  obtain ⟨_, _, same⟩ := steps_lift.mp run
  cases same

/-- A question whose answer is the result. -/
theorem relays_ask (op : I.Op) {x : ExceptT ε (Prog I) α} (answer : I.Ans op → Except ε α)
    (asks : x.run = .ask op fun ans => .ret (answer ans))
    (told : ∀ ans e, answer ans = .error e → fails ⟨op, ans⟩ e) : Relays fails x := by
  intro trace e run
  rw [asks] at run
  cases run with
  | step ans rest =>
    obtain ⟨rfl, same⟩ := steps_ret.mp rest
    exact ⟨_, List.mem_cons_self, told ans e same⟩

theorem relays_try {x : ExceptT ε (Prog I) α} {f : α → ExceptT ε (Prog I) β}
    (first : Relays fails x) (rest : ∀ a, Relays fails (f a)) : Relays fails (x >>= f) := by
  intro trace e run
  rcases steps_try.mp run with ⟨e', failed, same⟩ | ⟨before, a, after, rfl, _, run⟩
  · cases same
    exact first trace e failed
  · obtain ⟨event, member, told⟩ := rest a after e run
    exact ⟨event, List.mem_append_right _ member, told⟩

end Prog

namespace Praefectus

open Prog

/-- The host, or the ledger that stores a record, answered with the error. -/
def Fails : Event Engine → ProtocolError → Prop
  | ⟨.ledger (.append _), .error e⟩, e' | ⟨.begin .., .error e⟩, e' | ⟨.record .., .error e⟩, e' =>
    e = e'
  | _, _ => False

theorem relays_append (record : LedgerRecord) : Relays Fails (append record) := by
  refine relays_ask (I := Engine) (.ledger (.append record)) id rfl fun ans e same => ?_
  subst same
  exact rfl

theorem relays_begin (outcomes : Outcomes) (key : OutcomeKey) : Relays Fails (begin outcomes key) := by
  refine relays_ask (I := Engine) (.begin outcomes key) id rfl fun ans e same => ?_
  subst same
  exact rfl

theorem relays_recordOutcome (outcomes : Outcomes) (key : OutcomeKey) (terminal : Terminal) :
    Relays Fails (recordOutcome outcomes key terminal) := by
  refine relays_ask (I := Engine) (.record outcomes key terminal) id rfl fun ans e same => ?_
  subst same
  exact rfl

theorem relays_finish (acknowledgement : ActionAck) : Relays Fails (finish acknowledgement) :=
  relays_try (relays_append _) fun _ => relays_lift

theorem relays_reconcileInterrupted (outcomes : Outcomes) (acknowledgement : ActionAck) :
    Relays Fails (reconcileInterrupted outcomes acknowledgement) := by
  unfold reconcileInterrupted
  split
  · refine relays_try (relays_begin _ _) fun decision => ?_
    cases decision with
    | recorded terminal => exact relays_try (relays_finish _) fun _ => relays_pure
    | _ => exact relays_pure
  · exact relays_pure

namespace Execution

variable (execution : Execution)

theorem relays_finishWithoutEffect (acknowledgements : List ActionAck) (terminal : Terminal) :
    Relays Fails (execution.finishWithoutEffect acknowledgements terminal) :=
  relays_try (relays_recordOutcome _ _ _) fun _ => relays_try (relays_finish _) fun _ => relays_pure

theorem relays_granted : Relays Fails execution.granted := by
  refine relays_try relays_lift fun prepared => ?_
  cases prepared with
  | error terminal => exact execution.relays_finishWithoutEffect _ _
  | ok prepared =>
    refine relays_try relays_lift fun settled => ?_
    obtain ⟨terminal, effect⟩ := settled
    cases effect with
    | true => exact relays_try relays_lift fun _ => relays_try relays_lift fun _ => relays_pure
    | false => exact execution.relays_finishWithoutEffect _ _

theorem relays_claimed : Relays Fails execution.claimed := by
  refine relays_try (relays_begin _ _) fun decision => ?_
  refine relays_try relays_lift fun resolved => ?_
  cases resolved with
  | none => exact execution.relays_granted
  | some terminal => exact relays_try (relays_finish _) fun _ => relays_pure

theorem relays_recovered (claim : ClaimFacts) : Relays Fails (execution.recovered claim) := by
  refine relays_try relays_lift fun receipt => ?_
  refine relays_try (relays_begin _ _) fun decision => ?_
  cases decision <;>
    exact relays_try relays_pure fun _ => relays_try (relays_finish _) fun _ => relays_pure

/-- The questions a call asks before it may store its claim. -/
def lookup (answer : Except ProtocolError (List LedgerRecord)) : History :=
  [⟨.ledger .repairTail, .ok ()⟩, ⟨.ledger .records, answer⟩]

/-- How a locked call comes to fail: the ledger cannot be repaired or read, it holds a claim
with another hash, or a question that changes something was answered with the error. -/
inductive LockedFails (execution : Execution) : History → ProtocolError → Prop where
  | unrepaired {e : ProtocolError} :
      LockedFails execution [⟨.ledger .repairTail, .error e⟩] e
  | unread {e : ProtocolError} : LockedFails execution (lookup (.error e)) e
  | conflict {records : List LedgerRecord} {claim : ClaimFacts} :
      (scan execution.request.operationId records).1 = some claim →
      claim.actionHash ≠ execution.actionHash → LockedFails execution (lookup (.ok records)) .conflict
  | told {history : History} {e : ProtocolError} : (∃ event ∈ history, Fails event e) →
      LockedFails execution history e

variable {execution}

theorem claim_fails {history : History} {e : ProtocolError}
    (run : Steps (claim execution.build execution.request execution.actionHash
      execution.sessionIsolation).run history (.ret (.error e))) :
    history = [⟨.ledger .records, .error e⟩] ∨
    (∃ records claim, history = [⟨.ledger .records, .ok records⟩] ∧ e = .conflict ∧
      (scan execution.request.operationId records).1 = some claim ∧
      claim.actionHash ≠ execution.actionHash) ∨
    ∃ event ∈ history, Fails event e := by
  rcases steps_try.mp run with ⟨_, failed, same⟩ | ⟨reading, records, rest, rfl, read, after⟩
  · cases same
    exact .inl (steps_ask.mp failed)
  obtain rfl := steps_ask.mp read
  split at after
  next existing terminal found =>
    split at after
    next differs =>
      obtain ⟨rfl, same⟩ := steps_ret.mp after
      cases same
      exact .inr (.inl ⟨records, existing, rfl, rfl, by rw [found], differs⟩)
    next =>
      obtain ⟨_, same⟩ := steps_ret.mp after
      cases same
  next =>
    have storing : Relays Fails (do
        append (claimRecord execution.build execution.request execution.actionHash
          execution.sessionIsolation (← now))
        pure .new : EngineM ClaimResult) :=
      relays_try relays_lift fun _ => relays_try (relays_append _) fun _ => relays_pure
    obtain ⟨event, member, told⟩ := storing _ _ after
    exact .inr (.inr ⟨event, List.mem_append_right _ member, told⟩)

theorem locked_fails {history : History} {e : ProtocolError}
    (run : Steps execution.locked.run history (.ret (.error e))) : execution.LockedFails history e := by
  replace run := steps_try.mp run
  rcases run with ⟨_, failed, same⟩ | ⟨mending, _, rest, rfl, mended, run⟩
  · cases same
    obtain rfl := steps_ask.mp failed
    exact .unrepaired
  obtain rfl := steps_ask.mp mended
  replace run := steps_try.mp run
  rcases run with ⟨_, failed, same⟩ | ⟨claiming, result, rest, rfl, _, run⟩
  · cases same
    rcases claim_fails failed with rfl | ⟨records, claim, rfl, rfl, found, differs⟩ | ⟨event, member, told⟩
    · exact .unread
    · exact .conflict found differs
    · exact .told ⟨event, List.mem_append_right _ member, told⟩
  have relayed : ∃ event ∈ rest, Fails event e := by
    cases result with
    | new => exact relays_claimed execution _ _ run
    | replay acknowledgement =>
      exact relays_try (relays_reconcileInterrupted _ _) (fun _ => relays_pure) _ _ run
    | recoveredUnknown claim => exact relays_recovered execution claim _ _ run
  obtain ⟨event, member, told⟩ := relayed
  exact .told ⟨event, List.mem_append_right _ (List.mem_append_right _ member), told⟩

end Execution

/-! ### The whole call -/

section

variable (build : Build) (outcomes : Outcomes) (request : ActionRequest)

/-- What a call asks up to the lock. -/
def opening (isDir : PathBuf → Bool) (actionHash : String) (authority : VerifiedAuthority)
    (sessionIsolation : SessionIsolation) (locked : Except ProtocolError Unit) : History :=
  [⟨.directories, isDir⟩, ⟨.verifyAuthority request actionHash, .ok authority⟩,
    ⟨.sessionIsolation, sessionIsolation⟩,
    ⟨.lock (some (min request.deadlineAtMs authority.expiresAtMs)), locked⟩]

/-- The execution of an accepted request. -/
def accepted (actionHash : String) (authority : VerifiedAuthority)
    (sessionIsolation : SessionIsolation) : Execution :=
  ⟨build, outcomes, request, actionHash, sessionIsolation,
    min request.deadlineAtMs authority.expiresAtMs⟩

/-- How a call comes to its result, with all that it asked. -/
inductive CallEnds : History → Except ProtocolError ExecuteReport → Prop where
  | invalid {isDir : PathBuf → Bool} {e : ProtocolError} :
      validateRequest build isDir request = .error e → CallEnds [⟨.directories, isDir⟩] (.error e)
  | unhashed {isDir : PathBuf → Bool} {e : ProtocolError} :
      validateRequest build isDir request = .ok () →
      normalizedActionHash build request = .error e → CallEnds [⟨.directories, isDir⟩] (.error e)
  | unauthorized {isDir : PathBuf → Bool} {actionHash : String} {e : ProtocolError} :
      validateRequest build isDir request = .ok () →
      normalizedActionHash build request = .ok actionHash →
      CallEnds [⟨.directories, isDir⟩, ⟨.verifyAuthority request actionHash, .error e⟩] (.error e)
  | unlocked {isDir : PathBuf → Bool} {actionHash : String} {authority : VerifiedAuthority}
      {sessionIsolation : SessionIsolation} {e : ProtocolError} :
      validateRequest build isDir request = .ok () →
      normalizedActionHash build request = .ok actionHash →
      CallEnds (opening request isDir actionHash authority sessionIsolation (.error e)) (.error e)
  | locked {isDir : PathBuf → Bool} {actionHash : String} {authority : VerifiedAuthority}
      {sessionIsolation : SessionIsolation} {inside : History}
      {result : Except ProtocolError ExecuteReport} :
      validateRequest build isDir request = .ok () →
      normalizedActionHash build request = .ok actionHash →
      Steps (accepted build outcomes request actionHash authority sessionIsolation).locked.run inside
        (.ret result) →
      CallEnds (opening request isDir actionHash authority sessionIsolation (.ok ()) ++
        (inside ++ [⟨.release (.executed ⟨request.operationId, actionHash⟩ result), ()⟩])) result

variable {build outcomes request}

theorem execute_ends {history : History} {result : Except ProtocolError ExecuteReport}
    (run : Steps (execute build outcomes request).run history (.ret result)) :
    CallEnds build outcomes request history result := by
  replace run := steps_after run
  obtain ⟨_, isDir, rest, rfl, asked, run⟩ := run
  obtain rfl := steps_ask.mp asked
  replace run := steps_try.mp run
  rcases run with ⟨_, failed, rfl⟩ | ⟨_, _, rest, rfl, valid, run⟩
  · obtain ⟨rfl, invalid⟩ := steps_ret.mp failed
    exact .invalid invalid
  replace valid := steps_ret.mp valid
  obtain ⟨rfl, valid⟩ := valid
  replace run := steps_try.mp run
  rcases run with ⟨_, failed, rfl⟩ | ⟨_, actionHash, rest, rfl, hashed, run⟩
  · obtain ⟨rfl, unhashed⟩ := steps_ret.mp failed
    exact .unhashed valid unhashed
  replace hashed := steps_ret.mp hashed
  obtain ⟨rfl, hashed⟩ := hashed
  replace run := steps_try.mp run
  rcases run with ⟨_, failed, rfl⟩ | ⟨_, authority, rest, rfl, verified, run⟩
  · obtain rfl := steps_ask.mp failed
    exact .unauthorized valid hashed
  obtain rfl := steps_ask.mp verified
  replace run := steps_after run
  obtain ⟨_, sessionIsolation, rest, rfl, asked, run⟩ := run
  obtain rfl := steps_ask.mp asked
  replace run := steps_try.mp run
  rcases run with ⟨_, failed, rfl⟩ | ⟨_, _, rest, rfl, locked, run⟩
  · obtain rfl := steps_ask.mp failed
    exact .unlocked valid hashed
  obtain rfl := steps_ask.mp locked
  replace run := steps_bind.mp run
  obtain ⟨inside, result', rest, rfl, body, run⟩ := run
  replace run := steps_bind.mp run
  obtain ⟨_, _, rest, rfl, released, run⟩ := run
  obtain rfl := steps_ask.mp released
  obtain ⟨rfl, rfl⟩ := steps_ret.mp run
  exact .locked valid hashed body

end

end Praefectus
