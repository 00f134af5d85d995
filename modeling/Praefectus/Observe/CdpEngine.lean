import Praefectus.Engine.Dispatches
import Praefectus.Observe.CdpSettled

/-!
# An engine over a page

The engine's questions to its executor are answered by the programs that look at a page and
change it. What a report says is then compared with what was done to the page.
-/

namespace Praefectus.Cdp.CdpExecutor

open Prog Json

/-! ### The executor -/

/-- Beside the engine's other questions and those to the browser, the system is asked whether the
endpoint is owned by the process, and the channel is connected to it. -/
inductive BrowserEngineOp where
  | engine (op : EngineOp)
  | live (op : LiveOp)
  | ownsEndpoint

abbrev BrowserEngine : Interface where
  Op := BrowserEngineOp
  Ans
    | .engine op => op.Answer
    | .live op => LiveBrowser.Ans op
    | .ownsEndpoint => Bool

/-- What an executor was built with. -/
structure PageExecutor where
  build : Build
  config : CdpConfig
  sessionIsolation : SessionIsolation
  scripts : Scripts
  /-- A bound on the rounds of its loop. -/
  rounds : Nat

def onLive {α : Type} : Prog LiveBrowser α → Prog BrowserEngine α := Prog.rename .live fun _ ans => ans

def pageCapabilities : List ActionCapability :=
  ["invoke", "scroll", "set_value"].map fun action => ⟨action, .targetAddressed, .hostIsolatedOnly⟩

namespace PageExecutor

variable (page : PageExecutor)

def probeFunction (isProtected : Bool) : String :=
  if isProtected then page.scripts.protectedProbe else page.scripts.probe

/-- The clock is read only if an observation is stored. -/
def isCurrent : Option StoredObservation → Prog BrowserEngine Bool
  | none => pure false
  | some stored => do
    let nowMs ← perform (I := BrowserEngine) (.live (.browser .nowMs))
    pure (stored.observation.validate nowMs).isOk

def capabilities : Prog BrowserEngine (Except ProtocolError Capabilities) := do
  let backendAvailable ← perform (I := BrowserEngine) .ownsEndpoint
  match ← perform (I := BrowserEngine) (.live (.browser .latest)) with
  | none => pure (.error backendError)
  | some latest => do
    let current ← isCurrent latest
    let facts := if backendAvailable && current then pageCapabilities else []
    pure (.ok ⟨facts.map ActionCapability.action, facts⟩)

def nativeElement (node : CdpNode) (stored : StoredObservation) : NativeElement where
  backend := backendName
  id := node.element.elementId
  app := "chromium"
  processId :=
    let processId := stored.observation.provenance.processId.toNat
    if processId < 2 ^ 31 then some (.ofNat processId) else none
  window := some stored.observation.provenance.windowId
  role := node.element.role
  label := node.element.name
  title := none
  bounds := none
  state := ⟨node.element.actionability.toJson, rfl⟩
  enabled := some node.element.actionability.enabled

/-- The stored node, as the engine sees it. -/
def storedElement (target : SemanticTargetRef) : BrowserM NativeElement := do
  let now ← query .nowMs
  let latest ← orError .protocol (← query .latest)
  let stored : StoredObservation ← orError .targetNotFound latest
  let _ ← orFail ((stored.observation.resolve page.build target now).mapError mapSemanticError)
  let node ← orError .targetNotFound (stored.nodes.lookup target.elementId)
  pure (nativeElement node stored)

def resolveWithBoundary (target : TargetRef) (deadlineAtMs : Int64) : ProbeM ResolvedTarget := do
  mapError (boundary deadlineAtMs)
  match target with
  | .element target => do pure (.element (← mapError (page.storedElement target)))
  | _ => throw (.targetNotFound "browser semantic target required")

/-- The context of a shared desktop is not told. -/
def contextHashWithBoundary (deadlineAtMs : Int64) : ProbeM String := do
  mapError (boundary deadlineAtMs)
  mapError (boundary deadlineAtMs)
  throw (.executor "shared desktop context is unavailable")

/-- A reply has no key twice. -/
def observation (element : ObservedElement) : Except ProtocolError Observation :=
  if unique : element.state.uniqueKeys = true then .ok ⟨element.evidence, element.state, unique⟩
  else .error backendError

def observeWithBoundary (target : TargetRef) (deadlineAtMs : Int64) : ProbeM Observation := do
  let element ← CdpExecutor.observeWithBoundary page.build page.config page.probeFunction
    target deadlineAtMs
  orFail (observation element)

/-- The engine's questions, as this executor answers them. -/
def answers : (op : EngineOp) → Prog BrowserEngine op.Answer
  | .sessionIsolation => pure page.sessionIsolation
  | .capabilities => capabilities
  | .observeWithBoundary target deadlineAtMs =>
    onLive (onBrowser (page.observeWithBoundary target deadlineAtMs).run)
  | .resolveWithBoundary target deadlineAtMs =>
    onLive (onBrowser (page.resolveWithBoundary target deadlineAtMs).run)
  | .contextHashWithBoundary deadlineAtMs =>
    onLive (onBrowser (contextHashWithBoundary deadlineAtMs).run)
  | .dispatch _ action target verification deadlineAtMs =>
    onLive (CdpExecutor.dispatch page.build page.config page.scripts deadlineAtMs
      page.rounds action target verification).run
  | op => perform (I := BrowserEngine) (.engine op)

def execute (outcomes : Outcomes) (request : ActionRequest) :
    Prog BrowserEngine (Except ProtocolError ExecuteReport) :=
  (Praefectus.execute page.build outcomes request).run.handle page.answers

/-! ### What changes the page -/

/-- The command calls a function that changes the page. -/
def changes : BrowserEngineOp → Bool
  | .live op => isEffect page.scripts op
  | _ => false

def changesOf (trace : List (Event BrowserEngine)) : Past := trace.filterMap fun
  | ⟨.live op, ans⟩ => if isEffect page.scripts op then some ⟨op, ans⟩ else none
  | _ => none

def liveEvents (past : Past) : List (Event BrowserEngine) := past.map fun e => ⟨.live e.op, e.ans⟩

variable {page : PageExecutor} {α : Type}

theorem onLive_steps {p : Prog LiveBrowser α} {trace : List (Event BrowserEngine)}
    {q : Prog BrowserEngine α} (run : Steps (onLive p) trace q) :
    ∃ past p', Steps p past p' ∧ q = onLive p' ∧ trace = liveEvents past := by
  obtain ⟨past, p', above, same, each⟩ := steps_renamed _ run
  refine ⟨past, p', above, same, ?_⟩
  clear above run
  induction each with
  | nil => rfl
  | cons first _ ih =>
    obtain ⟨ans, rfl, told⟩ := first
    subst told
    rw [ih]
    rfl

theorem changesOf_append (first rest : List (Event BrowserEngine)) :
    page.changesOf (first ++ rest) = page.changesOf first ++ page.changesOf rest :=
  List.filterMap_append

theorem changesOf_live (past : Past) :
    page.changesOf (liveEvents past) = effectsOf page.scripts past := by
  unfold changesOf liveEvents effectsOf
  rw [List.filterMap_map, ← List.filterMap_eq_filter]
  rfl

theorem changesOf_unchanged {trace : List (Event BrowserEngine)}
    (unchanged : ∀ e ∈ trace, page.changes e.op = false) : page.changesOf trace = [] := by
  refine List.filterMap_eq_nil_iff.mpr fun e member => ?_
  have kept := unchanged e member
  obtain ⟨op, ans⟩ := e
  cases op with
  | live op =>
    have quiet : isEffect page.scripts op = false := kept
    simp [quiet]
  | _ => rfl

/-! ### Questions that do not change the page -/

theorem quiet_onLive {p : Prog Browser α} (only : p.Only fun op => Quiet page.scripts (.browser op)) :
    (onLive (onBrowser p)).Only fun op => page.changes op = false := by
  have live : (onBrowser p).Only (Quiet page.scripts) :=
    only_handle only fun _ quiet => ⟨quiet, fun _ => trivial⟩
  exact only_handle live fun _ quiet => ⟨quiet, fun _ => trivial⟩

theorem quiet_boundary (deadlineAtMs : Int64) :
    (mapError (boundary deadlineAtMs)).run.Only fun op => Quiet page.scripts (.browser op) :=
  only_bind (only_boundary deadlineAtMs rfl rfl) fun _ => trivial

theorem quiet_probeFunction (objectId : String) (isProtected : Bool) (deadlineAtMs : Int64) :
    Quiet page.scripts (.browser (.command callMethod
      (probeParameters objectId (page.probeFunction isProtected)) deadlineAtMs)) := by
  cases isProtected <;> exact quiet_call rfl (by simp [probeFunction])

theorem quiet_stored {α : Type} {x : BrowserM α}
    (only : x.run.Only fun op => Quiet page.scripts (.browser op)) :
    (mapError x).run.Only fun op => Quiet page.scripts (.browser op) :=
  only_bind only fun _ => trivial

theorem quiet_storedNode (target : SemanticTargetRef) :
    (storedNode page.build target).run.Only fun op => Quiet page.scripts (.browser op) := by
  refine only_try (only_query rfl) fun now => only_try (only_query rfl) fun latest => ?_
  refine only_try (only_orError _ _) fun latest => only_try (only_orError _ _) fun stored => ?_
  refine only_try (only_orFail _) fun _ => only_try (only_orError _ _) fun node => ?_
  trivial

theorem quiet_liveProbe (target : SemanticTargetRef) (deadlineAtMs : Int64) :
    (liveProbe page.build page.config page.probeFunction target deadlineAtMs).run.Only
      fun op => Quiet page.scripts (.browser op) := by
  have calmly {β : Type} {p : Prog Browser β}
      (plain : p.Only fun op => Plain page.scripts (.browser op)) :
      p.Only fun op => Quiet page.scripts (.browser op) := only_mono plain fun _ => And.left
  unfold liveProbe
  refine only_try (calmly plain_verifyProcess) fun _ => ?_
  refine only_try (quiet_stored (quiet_storedNode target)) fun node => ?_
  refine only_try (calmly plain_currentDocumentId) fun documentId => ?_
  split
  · trivial
  refine only_try (calmly (plain_resolveObject _ _)) fun objectId => ?_
  refine only_try ?_ fun response => ?_
  · exact only_probeCommand (quiet_probeFunction objectId node.isProtected deadlineAtMs)
  split
  · trivial
  refine only_try (only_orError _ _) fun value => ?_
  split
  · trivial
  refine only_try (calmly (plain_probeCommand (by decide) _)) fun layout => ?_
  refine only_try (only_orError _ _) fun viewport => ?_
  refine only_try (calmly (plain_probeCommand (by decide) _)) fun tree => ?_
  refine only_try (only_orError _ _) fun semantics => ?_
  refine only_try (calmly plain_verifyProcess) fun _ => ?_
  split <;> trivial

theorem quiet_observeWithBoundary (target : TargetRef) (deadlineAtMs : Int64) :
    (page.observeWithBoundary target deadlineAtMs).run.Only
      fun op => Quiet page.scripts (.browser op) := by
  refine only_try ?_ fun element => only_orFail _
  unfold CdpExecutor.observeWithBoundary
  refine only_try (quiet_boundary deadlineAtMs) fun _ => ?_
  cases target with
  | element target =>
    refine only_try (only_lift (quiet_liveProbe target deadlineAtMs)) fun probe => ?_
    refine only_try (quiet_boundary deadlineAtMs) fun _ => only_try (only_orFail _) fun probe => ?_
    refine only_try (only_query rfl) fun latest => only_try (only_orError _ _) fun latest => ?_
    refine only_try (only_orError _ _) fun _ => only_try (quiet_boundary deadlineAtMs) fun _ => ?_
    exact only_try (only_query rfl) fun _ => trivial
  | _ => trivial

theorem quiet_resolveWithBoundary (target : TargetRef) (deadlineAtMs : Int64) :
    (page.resolveWithBoundary target deadlineAtMs).run.Only
      fun op => Quiet page.scripts (.browser op) := by
  unfold resolveWithBoundary
  refine only_try (quiet_boundary deadlineAtMs) fun _ => ?_
  cases target with
  | element target =>
    refine only_try (quiet_stored ?_) fun element => trivial
    refine only_try (only_query rfl) fun now => only_try (only_query rfl) fun latest => ?_
    refine only_try (only_orError _ _) fun latest => only_try (only_orError _ _) fun stored => ?_
    exact only_try (only_orFail _) fun _ => only_try (only_orError _ _) fun node => trivial
  | _ => trivial

theorem quiet_capabilities : capabilities.Only fun op => page.changes op = false := by
  refine only_bind ⟨rfl, fun _ => trivial⟩ fun owns => ?_
  refine only_bind ⟨rfl, fun _ => trivial⟩ fun latest => ?_
  cases latest with
  | none => trivial
  | some latest =>
    refine only_bind ?_ fun current => trivial
    cases latest with
    | none => trivial
    | some stored => exact ⟨rfl, fun _ => trivial⟩

/-- Only a dispatch changes the page. -/
theorem quiet_answers {op : EngineOp} (other : ¬ op.IsDispatch) :
    (page.answers op).Only fun op => page.changes op = false := by
  cases op with
  | dispatch => exact absurd trivial other
  | sessionIsolation => trivial
  | capabilities => exact quiet_capabilities
  | observeWithBoundary target deadlineAtMs =>
    exact quiet_onLive (quiet_observeWithBoundary target deadlineAtMs)
  | resolveWithBoundary target deadlineAtMs =>
    exact quiet_onLive (quiet_resolveWithBoundary target deadlineAtMs)
  | contextHashWithBoundary deadlineAtMs =>
    refine quiet_onLive (only_try (quiet_boundary deadlineAtMs) fun _ => ?_)
    exact only_try (quiet_boundary deadlineAtMs) fun _ => trivial
  | _ => exact ⟨rfl, fun _ => trivial⟩

/-! ### A call that gives a text box a value -/

def boxPage : PageExecutor := ⟨pageBuild, pageConfig, .hostIsolated, boxScripts, 8⟩

def boxRequest : ActionRequest :=
  let request := benchRequest .backgroundOnly
  { request with
    authority := { request.authority with
      grant := { request.authority.grant with expiresAtMs := 4000 } }
    action := .setValue "new"
    target := .element boxTarget
    deadlineAtMs := 4000
    verification := .targetValueHash (hashBytes pageBuild "new".asBytes) }

def boxRespond : (op : BrowserEngineOp) → Bench → BrowserEngine.Ans op × Bench
  | .engine op, bench => Bench.respond 0 op bench
  | .live op, bench => (boxLive op, bench)
  | .ownsEndpoint, bench => (true, bench)

def boxHistory :
    List (Event BrowserEngine) × Prog BrowserEngine (Except ProtocolError ExecuteReport) × Bench :=
  Prog.play boxRespond 200 (boxPage.execute .null boxRequest) .new

theorem boxHistory_succeeds : (boxPage.changesOf boxHistory.1).length = 1 ∧
    boxHistory.2.1.returned?.any (reportsThat ExecuteReport.succeeds) = true := by decide +kernel

/-- The call gives the text box the value, and reports it. -/
theorem boxHistory_run : ∃ report receipt,
    Steps (boxPage.execute .null boxRequest) boxHistory.1 (.ret (.ok report)) ∧
      report.terminal? = some (.succeeded receipt) := by
  obtain ⟨result, succeeds, run⟩ := steps_returned boxHistory_succeeds.2
  cases result with
  | error e => contradiction
  | ok report =>
    obtain ⟨receipt, reported⟩ := succeeds_receipt succeeds
    exact ⟨report, receipt, run, reported⟩

/-- The effect, in its place. -/
theorem boxHistory_effect : ∃ before op ans after, boxHistory.1 = before ++ ⟨.live op, ans⟩ :: after ∧
    isEffect boxPage.scripts op = true := by
  obtain ⟨e, one⟩ := List.length_eq_one_iff.mp boxHistory_succeeds.1
  have member : e ∈ boxPage.changesOf boxHistory.1 := one ▸ List.mem_singleton_self e
  obtain ⟨⟨op, ans⟩, member, told⟩ := List.mem_filterMap.mp member
  cases op with
  | live op =>
    by_cases effect : isEffect boxPage.scripts op = true
    · obtain ⟨before, after, cut⟩ := List.append_of_mem member
      exact ⟨before, op, ans, after, cut, effect⟩
    · simp [effect] at told
  | _ => simp at told

/-! ### What a call does to the page -/

section

variable {outcomes : Outcomes} {request : ActionRequest} {trace : List (Event BrowserEngine)}

/-- What the engine asked of others is in the history. -/
theorem asked_engine {events : List (Event Engine)} (refined : Refined page.answers events trace)
    {op : EngineOp} {ans : op.Answer}
    (passed : page.answers op = perform (I := BrowserEngine) (.engine op))
    (asked : (⟨op, ans⟩ : Event Engine) ∈ events) :
    (⟨.engine op, ans⟩ : Event BrowserEngine) ∈ trace := by
  obtain ⟨piece, answered, part⟩ := refined_piece refined asked
  rw [passed] at answered
  obtain rfl := steps_ask.mp answered
  exact part.subset List.mem_cons_self

theorem isolation_told {events : List (Event Engine)} (refined : Refined page.answers events trace)
    {isolation : SessionIsolation}
    (asked : (⟨.sessionIsolation, isolation⟩ : Event Engine) ∈ events) :
    isolation = page.sessionIsolation := by
  obtain ⟨piece, answered, _⟩ := refined_piece refined asked
  have whole : Steps (pure page.sessionIsolation : Prog BrowserEngine SessionIsolation) piece
    (.ret isolation) := answered
  exact (steps_ret.mp whole).2.symm

/-- What is advertised is for a host that is isolated, by the process that owns the endpoint. -/
theorem capabilities_told {events : List (Event Engine)} (refined : Refined page.answers events trace)
    {facts : Capabilities} (asked : (⟨.capabilities, .ok facts⟩ : Event Engine) ∈ events)
    {capability : ActionCapability} (member : capability ∈ facts.actionCapabilities) :
    capability.backgroundSupport = .hostIsolatedOnly ∧
      (⟨.ownsEndpoint, true⟩ : Event BrowserEngine) ∈ trace := by
  obtain ⟨piece, answered, part⟩ := refined_piece refined asked
  replace answered : Steps capabilities piece (.ret (.ok facts)) := answered
  replace answered := steps_bind.mp answered
  obtain ⟨_, owns, rest, rfl, told, answered⟩ := answered
  obtain rfl := steps_ask.mp told
  replace answered := steps_bind.mp answered
  obtain ⟨_, latest, rest, rfl, _, answered⟩ := answered
  cases latest with
  | none => nomatch (steps_ret.mp answered).2
  | some latest =>
    replace answered := steps_bind.mp answered
    obtain ⟨_, current, rest, rfl, _, answered⟩ := answered
    obtain ⟨_, same⟩ := steps_ret.mp answered
    obtain rfl := Except.ok.inj same
    cases both : owns && current with
    | false => simp [both] at member
    | true =>
      obtain ⟨rfl, _⟩ := Bool.and_eq_true_iff.mp both
      refine ⟨?_, part.subset (List.mem_append_left _ List.mem_cons_self)⟩
      simp only [both, if_true, pageCapabilities, List.mem_map] at member
      obtain ⟨_, _, rfl⟩ := member
      rfl

/-- What stands before an effect in the history of a call: the authority was accepted and is not
past, the process owns the endpoint, a background action has a host of its own, and the dispatch
has come through its fence. -/
def Warranted (page : PageExecutor) (request : ActionRequest)
    (before : List (Event BrowserEngine)) (op : LiveOp) : Prop :=
  ∃ opening past deadlineAtMs elementId actionHash authority,
    before = opening ++ liveEvents past ∧ page.changesOf opening = [] ∧
    (⟨.engine (.verifyAuthority request actionHash), .ok authority⟩ : Event BrowserEngine) ∈ opening ∧
    deadlineAtMs = min request.deadlineAtMs authority.expiresAtMs ∧
    (⟨.ownsEndpoint, true⟩ : Event BrowserEngine) ∈ opening ∧
    (request.interactionMode = .backgroundOnly → page.sessionIsolation = .hostIsolated) ∧
    Fenced page.build page.config page.scripts deadlineAtMs request.action elementId past op

/-- **No effect without a warrant**: whatever the environment answers, and however far the call
has come, the page is changed only with a warrant. -/
theorem effect_warranted {before after : List (Event BrowserEngine)} {op : LiveOp}
    {ans : LiveBrowser.Ans op} {p : Prog BrowserEngine (Except ProtocolError ExecuteReport)}
    (run : Steps (page.execute outcomes request) (before ++ ⟨.live op, ans⟩ :: after) p)
    (effect : isEffect page.scripts op = true) : page.Warranted request before op := by
  obtain ⟨next, run⟩ := steps_paused run
  obtain ⟨events, opening, rest, asked, next', next'', rfl, above, refined, inside⟩ :=
    steps_handle_ask run
  have dispatches : asked.IsDispatch := by
    by_contra other
    have quiet : isEffect page.scripts op = false := only_pending (quiet_answers other) inside
    exact absurd (effect.symm.trans quiet) (by decide)
  obtain ⟨execution, early, late, rfl, opened, undispatched, prepared, rfl, ready⟩ :=
    execute_dispatches above dispatches
  obtain rfl := opened.requested
  obtain ⟨past, p', dispatching, same, rfl⟩ := onLive_steps inside
  cases p' with
  | ret => nomatch same
  | ask op' next =>
    obtain ⟨named, _⟩ := Prog.ask.inj same
    obtain rfl := BrowserEngineOp.live.inj named
    have longer := steps_trans dispatching (.step ans (.refl _))
    have special : ¬ Plain page.scripts (Event.mk (I := LiveBrowser) op ans).op :=
      effect_not_plain effect
    obtain ⟨element, _, allowed⟩ := dispatch_asks longer special
    obtain ⟨actionHash, authority, verified, deadline⟩ := opened.deadline
    obtain ⟨facts, capability, advertised, strict, background⟩ := ready.capable
    have listed : capability ∈ facts.actionCapabilities := by
      have found : capability ∈ [capability] := List.mem_singleton_self _
      rw [← strictActionCapability_unique strict] at found
      exact List.mem_of_mem_filter found
    obtain ⟨support, owns⟩ := capabilities_told refined advertised listed
    refine ⟨opening, past, execution.deadlineAtMs, element.id, actionHash, authority, rfl, ?_,
      asked_engine refined rfl (List.mem_append_left _ verified), deadline, owns, ?_, allowed.1 effect⟩
    · exact changesOf_unchanged (refined_only refined fun e member =>
        quiet_answers (undispatched e member))
    · intro quietly
      have isolated := background quietly
      have told := isolation_told refined
        (List.mem_append_left _ ((opened.isolation _).mpr rfl))
      rw [told] at isolated
      unfold backgroundCapabilityIsAuthorized at isolated
      cases isolation : page.sessionIsolation <;> simp_all

theorem effect_warranted_box : ∃ before op ans after p,
    Steps (boxPage.execute .null boxRequest) (before ++ ⟨.live op, ans⟩ :: after) p ∧
      isEffect boxPage.scripts op = true ∧ boxPage.Warranted boxRequest before op := by
  obtain ⟨report, receipt, run, _⟩ := boxHistory_run
  obtain ⟨before, op, ans, after, cut, effect⟩ := boxHistory_effect
  rw [cut] at run
  exact ⟨before, op, ans, after, _, run, effect, effect_warranted run effect⟩

/-- Where a call dispatched, its history is the one of the dispatch between two others. -/
theorem execute_cut {result : Except ProtocolError ExecuteReport}
    (run : Steps (page.execute outcomes request) trace (.ret result)) :
    ∃ events, Steps (Praefectus.execute page.build outcomes request).run events (.ret result) ∧
      Refined page.answers events trace ∧
      (page.changesOf trace = [] ∧ Undispatched events ∨
        ∃ execution prepared answer first past rest deadlineAtMs,
          (⟨Execution.dispatchOp execution prepared, answer⟩ : Event Engine) ∈ events ∧
          trace = first ++ liveEvents past ++ rest ∧ page.changesOf first = [] ∧
          page.changesOf rest = [] ∧
          Verdict (fun receipt past => receipt = successReceipt ∧
            Done page.build page.scripts deadlineAtMs request.action past) (Told page.scripts)
            answer past) := by
  obtain ⟨events, above, refined⟩ := steps_handle.mp run
  refine ⟨events, above, refined, ?_⟩
  by_cases undispatched : Undispatched events
  · exact .inl ⟨changesOf_unchanged (refined_only refined fun e member =>
      quiet_answers (undispatched e member)), undispatched⟩
  obtain ⟨e, member, dispatches⟩ : ∃ e ∈ events, e.op.IsDispatch := by
    simpa [Undispatched] using undispatched
  obtain ⟨before, after, rfl⟩ := List.append_of_mem member
  obtain ⟨next, pending⟩ := steps_paused above
  obtain ⟨execution, early, late, rfl, opened, clean, prepared, same, _⟩ :=
    execute_dispatches pending dispatches
  obtain rfl := opened.requested
  have clean' : Undispatched after := by
    intro e' member' dispatches'
    obtain ⟨between, after, rfl⟩ := List.append_of_mem member'
    -- the dispatch before it was the only one
    have longer : early ++ late ++ e :: (between ++ e' :: after) =
        (early ++ late ++ e :: between) ++ e' :: after := by simp
    rw [longer] at above
    obtain ⟨_, pending'⟩ := steps_paused above
    obtain ⟨_, _, _, _, _, clean', _⟩ := execute_dispatches pending' dispatches'
    exact clean' e (by simp) dispatches
  obtain ⟨first, piece, rest, rfl, earlier, answered, later⟩ := refined_split refined
  obtain ⟨op, answer⟩ := e
  dsimp only at same
  subst same
  obtain ⟨past, p', dispatching, ended, rfl⟩ := onLive_steps answered
  cases p' with
  | ask => nomatch ended
  | ret answer' =>
    obtain rfl : answer = answer' := Prog.ret.inj ended
    have kept {others : List (Event Engine)} {part : List (Event BrowserEngine)}
        (refined : Refined page.answers others part) (clean : Undispatched others) :
        page.changesOf part = [] := changesOf_unchanged (refined_only refined fun e member =>
      quiet_answers (clean e member))
    exact .inr ⟨execution, prepared, answer, first, past, rest, execution.deadlineAtMs, member, rfl,
      kept earlier clean, kept later clean', dispatch_ends dispatching⟩

/-- The terminal was among the records of the ledger, or the host had recorded it. -/
def Replayed (trace : List (Event BrowserEngine)) (terminal : Terminal) : Prop :=
  (∃ records acknowledgement,
    (⟨.engine (.ledger .records), .ok records⟩ : Event BrowserEngine) ∈ trace ∧
    LedgerRecord.terminal acknowledgement ∈ records ∧ acknowledgement.state = .terminal terminal) ∨
  ∃ outcomes key,
    (⟨.engine (.begin outcomes key), .ok (.recorded terminal)⟩ : Event BrowserEngine) ∈ trace

theorem replayed_told {events : List (Event Engine)} {terminal : Terminal}
    (refined : Refined page.answers events trace) (told : Praefectus.Told events terminal) :
    Replayed trace terminal := by
  rcases told.told with ⟨records, acknowledgement, asked, facts⟩ | ⟨outcomes, key, asked⟩
  · exact .inl ⟨records, acknowledgement, asked_engine refined rfl asked, facts⟩
  · exact .inr ⟨outcomes, key, asked_engine refined rfl asked⟩

/-- **What a call says of the page**: it changes the page once at most; unless the change did
not come about, the call does not fail, nor report that nothing happened; and if it reports a
success, the change was done, or nothing was changed and the success was told by a ledger. -/
theorem effect_reported {result : Except ProtocolError ExecuteReport}
    (run : Steps (page.execute outcomes request) trace (.ret result)) :
    (page.changesOf trace).length ≤ 1 ∧
      (∀ e ∈ page.changesOf trace, ¬ Undone e → ∃ report terminal, result = .ok report ∧
        report.terminal? = some terminal ∧ terminal.isWithoutEffect = false) ∧
      ∀ report receipt, result = .ok report → report.terminal? = some (.succeeded receipt) →
        page.changesOf trace = [] ∧ Replayed trace (.succeeded receipt) ∨
          ∃ first past rest deadlineAtMs, trace = first ++ liveEvents past ++ rest ∧
          Done page.build page.scripts deadlineAtMs request.action past := by
  obtain ⟨events, above, refined, cut⟩ := execute_cut run
  have reported := upholds_run execute_reports (List.forall_mem_nil _) above
  rcases cut with ⟨none, undispatched⟩ | ⟨execution, prepared, answer, first, past, rest,
    deadlineAtMs, asked, rfl, earlier, later, verdict⟩
  · -- Nothing is dispatched, so a success comes from a ledger.
    rw [none]
    refine ⟨Nat.zero_le _, fun e member => absurd member List.not_mem_nil, ?_⟩
    rintro report receipt rfl succeeded
    exact .inl ⟨rfl, replayed_told refined (execute_told above succeeded undispatched)⟩
  have whole : page.changesOf (first ++ liveEvents past ++ rest) = effectsOf page.scripts past := by
    rw [changesOf_append, changesOf_append, earlier, later, changesOf_live, List.nil_append,
      List.append_nil]
  rw [whole]
  have spares (spared : Spared events) (e : Event LiveBrowser)
      (member : e ∈ effectsOf page.scripts past) : Undone e := by
    obtain ⟨error, same, known⟩ := spared _ _ _ _ _ _ asked
    subst same
    exact (told_once verdict).2 known e member
  -- The page is changed by the one dispatch alone.
  refine ⟨?_, ?_, ?_⟩
  · cases answer with
    | error error => exact (told_once verdict).1
    | ok receipt =>
      obtain ⟨_, _, one, _⟩ := done_once verdict.2
      simp [one]
  · intro e member happened
    cases result with
    | error error => exact absurd (spares reported e member) happened
    | ok report =>
      rcases reported.told with spared | ⟨terminal, same, open'⟩
      · exact absurd (spares spared e member) happened
      · exact ⟨report, terminal, rfl, same, open'⟩
  · rintro report receipt rfl succeeded
    obtain ⟨dispatch, same⟩ := reported.succeeded receipt succeeded _ _ _ _ _ _ asked
    subst same
    exact .inr ⟨first, past, rest, deadlineAtMs, rfl, verdict.2⟩

theorem effect_reported_box : ∃ trace report receipt,
    Steps (boxPage.execute .null boxRequest) trace (.ret (.ok report)) ∧
      report.terminal? = some (.succeeded receipt) ∧ (boxPage.changesOf trace).length = 1 ∧
      ∃ first past rest deadlineAtMs, trace = first ++ liveEvents past ++ rest ∧
        Done boxPage.build boxPage.scripts deadlineAtMs boxRequest.action past := by
  obtain ⟨report, receipt, run, succeeded⟩ := boxHistory_run
  have one := boxHistory_succeeds.1
  obtain ⟨_, _, finished⟩ := effect_reported run
  refine ⟨_, report, receipt, run, succeeded, one, ?_⟩
  rcases finished report receipt rfl succeeded with ⟨none, _⟩ | finished
  · simp [none] at one
  · exact finished

end

end PageExecutor

end Praefectus.Cdp.CdpExecutor
