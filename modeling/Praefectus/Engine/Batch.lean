import Praefectus.Engine.Bench
import Praefectus.Program.Histories

/-!
# Batches

A batch is its requests executed one after another. It stops at the first result that
is not a verified success, so that no later request is executed after an uncertain one.
-/

namespace Praefectus

open Prog

/-! ### Verified results -/

/-- The report ends in a success whose effect was verified. -/
def VerifiedSuccess (result : Except ProtocolError ExecuteReport) : Prop :=
  ∃ report before acknowledgement receipt, result = .ok report ∧
    report.acknowledgements = before ++ [acknowledgement] ∧
    acknowledgement.state = .terminal (.succeeded receipt) ∧ receipt.effect = .verified

theorem isVerified_iff (result : Except ProtocolError ExecuteReport) :
    isVerified result = true ↔ VerifiedSuccess result := by
  constructor
  · intro verified
    cases result with
    | error e => cases verified
    | ok report =>
      -- the last acknowledgement decides, however many there are
      rcases List.eq_nil_or_concat report.acknowledgements with none | ⟨before, last, ended⟩
      · simp [isVerified, none] at verified
      · rw [List.concat_eq_append] at ended
        simp only [isVerified, ended, List.getLast?_concat, Option.map_some] at verified
        split at verified
        next receipt state =>
          have state := Option.some.inj state
          exact ⟨report, before, last, receipt, rfl, ended, state, of_decide_eq_true verified⟩
        · cases verified
  · rintro ⟨report, before, last, receipt, rfl, ended, state, verified⟩
    simp [isVerified, ended, state, verified]

/-! ### Executions one after another -/

/-- The requests were executed in order, with these results, and this is the whole history. -/
inductive EachRan (build : Build) (outcomes : Outcomes) :
    List ActionRequest → History → List (Except ProtocolError ExecuteReport) → Prop where
  | nil : EachRan build outcomes [] [] []
  | cons {request : ActionRequest} {requests : List ActionRequest} {first rest : History}
      {result : Except ProtocolError ExecuteReport}
      {results : List (Except ProtocolError ExecuteReport)} :
      Steps (execute build outcomes request).run first (.ret result) →
      EachRan build outcomes requests rest results →
      EachRan build outcomes (request :: requests) (first ++ rest) (result :: results)

/-- The batch got to the end of `ran`: all of it was verified before its last request, and the
rest was left because that one was not. -/
structure StoppedAfter (build : Build) (outcomes : Outcomes) (requests ran : List ActionRequest)
    (history : History) (results : List (Except ProtocolError ExecuteReport)) : Prop where
  inOrder : ran <+: requests
  each : EachRan build outcomes ran history results
  verified : ∀ result ∈ results.dropLast, VerifiedSuccess result
  stopped : ran = requests ∨ ∃ before last, results = before ++ [last] ∧ ¬ VerifiedSuccess last

/-- The batch is in the middle of the execution of `request`, and asks `op`. -/
structure PendingIn (build : Build) (outcomes : Outcomes) (requests ran : List ActionRequest)
    (request : ActionRequest) (history current : History) (op : EngineOp)
    (results : List (Except ProtocolError ExecuteReport)) : Prop where
  inOrder : ran ++ [request] <+: requests
  each : EachRan build outcomes ran history results
  verified : ∀ result ∈ results, VerifiedSuccess result
  asks : ∃ next, Steps (execute build outcomes request).run current (.ask op next)

section

variable {build : Build} {outcomes : Outcomes} {request : ActionRequest}
  {requests ran : List ActionRequest} {first rest history : History}
  {result : Except ProtocolError ExecuteReport}
  {results : List (Except ProtocolError ExecuteReport)}

/-- The batch after its first request was verified. -/
theorem stoppedAfter_cons
    (execution : Steps (execute build outcomes request).run first (.ret result))
    (verified : VerifiedSuccess result)
    (stopped : StoppedAfter build outcomes requests ran rest results) :
    StoppedAfter build outcomes (request :: requests) (request :: ran) (first ++ rest)
      (result :: results) where
  inOrder := List.cons_prefix_cons.mpr ⟨rfl, stopped.inOrder⟩
  each := .cons execution stopped.each
  verified := by
    intro earlier member
    cases results with
    | nil => cases member
    | cons next results =>
      rw [List.dropLast_cons_cons] at member
      rcases List.mem_cons.mp member with rfl | member
      · exact verified
      · exact stopped.verified earlier member
  stopped := by
    rcases stopped.stopped with rfl | ⟨before, last, rfl, unverified⟩
    · exact .inl rfl
    · exact .inr ⟨result :: before, last, rfl, unverified⟩

/-- The batch after its first request was not verified. -/
theorem stoppedAfter_one
    (execution : Steps (execute build outcomes request).run history (.ret result))
    (unverified : ¬ VerifiedSuccess result) :
    StoppedAfter build outcomes (request :: requests) [request] history [result] where
  inOrder := ⟨requests, rfl⟩
  each := by
    rw [← List.append_nil history]
    exact .cons execution .nil
  verified := nofun
  stopped := .inr ⟨[], result, rfl, unverified⟩

/-- A batch stopped somewhere after its first request, or there. -/
theorem stoppedAfter_cons_iff :
    (∃ ran, StoppedAfter build outcomes (request :: requests) ran history results) ↔
      ∃ first rest result, history = first ++ rest ∧
        Steps (execute build outcomes request).run first (.ret result) ∧
        (VerifiedSuccess result ∧
            (∃ ran later, results = result :: later ∧
              StoppedAfter build outcomes requests ran rest later) ∨
          ¬ VerifiedSuccess result ∧ rest = [] ∧ results = [result]) := by
  constructor
  · rintro ⟨ran, inOrder, each, verified, stopped⟩
    cases each with
    | nil =>
      -- nothing ran: neither the whole batch nor up to a result
      rcases stopped with same | ⟨before, last, same, _⟩
      · cases same
      · cases before <;> cases same
    | @cons _ ran first rest result later execution each =>
      obtain ⟨rfl, shorter⟩ := List.cons_prefix_cons.mp inOrder
      refine ⟨first, rest, result, rfl, execution, ?_⟩
      by_cases success : VerifiedSuccess result
      · refine .inl ⟨success, ran, later, rfl, shorter, each, ?_, ?_⟩
        · intro earlier member
          refine verified earlier ?_
          cases later with
          | nil => cases member
          | cons next later => exact List.mem_cons_of_mem _ member
        · rcases stopped with same | ⟨before, last, same, unverified⟩
          · exact .inl (List.cons.inj same).2
          · cases before with
            | nil =>
              obtain ⟨rfl, _⟩ := List.cons.inj same
              exact absurd success unverified
            | cons head before => exact .inr ⟨before, last, (List.cons.inj same).2, unverified⟩
      · -- a result that is followed by another is verified
        cases each with
        | nil => exact .inr ⟨success, rfl, rfl⟩
        | cons => exact absurd (verified result List.mem_cons_self) success
  · rintro ⟨first, rest, result, rfl, execution, ⟨success, ran, later, rfl, stopped⟩ |
      ⟨unverified, rfl, rfl⟩⟩
    · exact ⟨request :: ran, stoppedAfter_cons execution success stopped⟩
    · rw [List.append_nil]
      exact ⟨[request], stoppedAfter_one execution unverified⟩

end

/-! ### Histories of a batch -/

/-- A batch returns exactly when it stopped so. -/
theorem batch_returns (build : Build) (outcomes : Outcomes) (requests : List ActionRequest)
    (history : History) (results : List (Except ProtocolError ExecuteReport)) :
    Steps (executeBatch build outcomes requests) history (.ret results) ↔
      ∃ ran, StoppedAfter build outcomes requests ran history results := by
  induction requests generalizing history results with
  | nil =>
    refine steps_ret.trans ⟨?_, ?_⟩
    · rintro ⟨rfl, rfl⟩
      exact ⟨[], List.prefix_rfl, .nil, nofun, .inl rfl⟩
    · rintro ⟨ran, inOrder, each, _, _⟩
      obtain rfl := List.prefix_nil.mp inOrder
      cases each
      exact ⟨rfl, rfl⟩
  | cons request requests ih =>
    rw [stoppedAfter_cons_iff]
    refine steps_bind.trans ⟨?_, ?_⟩
    · rintro ⟨first, result, rest, rfl, execution, tail⟩
      refine ⟨first, rest, result, rfl, execution, ?_⟩
      split at tail
      next success =>
        obtain ⟨middle, later, last, rfl, whole, ended⟩ := steps_bind.mp tail
        obtain ⟨rfl, rfl⟩ := steps_ret.mp ended
        obtain ⟨ran, stopped⟩ := (ih middle later).mp whole
        rw [List.append_nil]
        exact .inl ⟨(isVerified_iff result).mp success, ran, later, rfl, stopped⟩
      next failure =>
        obtain ⟨rfl, rfl⟩ := steps_ret.mp tail
        exact .inr ⟨fun success => failure ((isVerified_iff result).mpr success), rfl, rfl⟩
    · rintro ⟨first, rest, result, rfl, execution, continued⟩
      refine ⟨first, result, rest, rfl, execution, ?_⟩
      rcases continued with ⟨success, ran, later, rfl, stopped⟩ | ⟨unverified, rfl, rfl⟩
      · rw [if_pos ((isVerified_iff result).mpr success)]
        refine steps_bind.mpr ⟨rest, later, [], (List.append_nil rest).symm, ?_, .refl _⟩
        exact (ih rest later).mpr ⟨ran, stopped⟩
      · rw [if_neg (mt (isVerified_iff result).mp unverified)]
        exact .refl _

/-- What a batch asks, it asks in an execution all of whose predecessors were verified. -/
theorem batch_asks {build : Build} {outcomes : Outcomes} {requests : List ActionRequest}
    {history : History} {op : EngineOp}
    {next : Engine.Ans op → Prog Engine (List (Except ProtocolError ExecuteReport))}
    (run : Steps (executeBatch build outcomes requests) history (.ask op next)) :
    ∃ ran request before current results, history = before ++ current ∧
      PendingIn build outcomes requests ran request before current op results := by
  induction requests generalizing history next with
  | nil => cases run
  | cons request requests ih =>
    rcases steps_bind_ask run with pending | ⟨first, result, rest, rfl, execution, tail⟩
    · exact ⟨[], request, [], history, [], rfl, ⟨requests, rfl⟩, .nil, nofun, pending⟩
    · split at tail
      next success =>
        rcases steps_bind_ask tail with ⟨_, inside⟩ | ⟨_, _, _, _, _, ended⟩
        · obtain ⟨ran, request', before, current, results, rfl, pending⟩ := ih inside
          refine ⟨request :: ran, request', first ++ before, current, result :: results,
            (List.append_assoc ..).symm, ?_, .cons execution pending.each, ?_, pending.asks⟩
          · exact List.cons_prefix_cons.mpr ⟨rfl, pending.inOrder⟩
          · exact List.forall_mem_cons.mpr ⟨(isVerified_iff result).mp success, pending.verified⟩
        · cases ended
      · cases tail

/-- Batches stop at the first result that is not verified. -/
theorem batch_stops (build : Build) (outcomes : Outcomes) (requests : List ActionRequest)
    (history : History) :
    (∀ results, Steps (executeBatch build outcomes requests) history (.ret results) ↔
      ∃ ran, StoppedAfter build outcomes requests ran history results) ∧
    ∀ op next, Steps (executeBatch build outcomes requests) history (.ask op next) →
      ∃ ran request before current results, history = before ++ current ∧
        PendingIn build outcomes requests ran request before current op results :=
  ⟨batch_returns build outcomes requests history, fun _ _ run => batch_asks run⟩

/-- Two requests for one press, which nothing verifies: the second is not executed. -/
def benchBatch : List ActionRequest := [benchRequest .backgroundOnly, benchRequest .backgroundOnly]

def benchBatchHistory :
    History × Prog Engine (List (Except ProtocolError ExecuteReport)) × Bench :=
  play (Bench.respond 0) 100 (executeBatch (benchBuild .backgroundOnly) .host benchBatch) .new

theorem batch_stops_bench :
    (∃ history results ran, results.length = 1 ∧
      Steps (executeBatch (benchBuild .backgroundOnly) .host benchBatch) history (.ret results) ∧
      StoppedAfter (benchBuild .backgroundOnly) .host benchBatch ran history results) ∧
    ∃ ran request before current results, [] = before ++ current ∧
      PendingIn (benchBuild .backgroundOnly) .host benchBatch ran request before current
        .directories results := by
  have stops := batch_stops (benchBuild .backgroundOnly) .host benchBatch
  have ended : benchBatchHistory.2.1.returned?.any (fun results => results.length = 1) = true := by
    decide +kernel
  obtain ⟨results, one, run⟩ := steps_returned ended
  obtain ⟨ran, stopped⟩ := ((stops benchBatchHistory.1).1 results).mp run
  exact ⟨⟨_, results, ran, of_decide_eq_true one, run, stopped⟩,
    (stops []).2 .directories _ (.refl _)⟩

end Praefectus
