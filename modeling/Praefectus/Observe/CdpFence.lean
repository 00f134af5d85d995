import Praefectus.Observe.CdpEffect
import Praefectus.Program.Upholds

/-!
# The fence of an effect on a page

Before a page is changed, the dispatch has read the latest observation, and has seen that the
document, the viewport, the element's node and its object are the observed ones. The rules here
say what each look at the page adds to what is known.
-/

namespace Praefectus.Cdp.CdpExecutor

open Prog Json

abbrev Past := Prog.History LiveBrowser

/-! ### Kinds of questions -/

def declarationOf (parameters : Json) : Option String :=
  (parameters.get? "functionDeclaration").bind asStr

/-- The command calls a function that changes the page. -/
def isEffect (scripts : Scripts) : LiveOp → Bool
  | .browser (.command method parameters _) =>
    method = callMethod && (declarationOf parameters).any
      [scripts.scrollEffect, scripts.invokeEffect, scripts.setValueEffect].contains
  | _ => false

/-- The command calls the function that tells of the value of an element. -/
def reveals (scripts : Scripts) : LiveOp → Bool
  | .browser (.command method parameters _) =>
    method = callMethod && declarationOf parameters = some scripts.probe
  | _ => false

def effectsOf (scripts : Scripts) (past : Past) : Past := past.filter fun e => isEffect scripts e.op

def Quiet (scripts : Scripts) (op : LiveOp) : Prop := isEffect scripts op = false

def Plain (scripts : Scripts) (op : LiveOp) : Prop :=
  isEffect scripts op = false ∧ reveals scripts op = false

/-- What is known before the page is changed. -/
structure Calm (scripts : Scripts) (R : Past → Prop) : Prop where
  lasting : Lasting (Quiet scripts) R
  unchanged : ∀ past, R past → effectsOf scripts past = []

/-! ### What was seen -/

/-- The browser replied to a command. -/
def Replied (method : String) (parameters : Json) (deadlineAtMs : Int64) (reply : Json)
    (past : Past) : Prop :=
  (⟨.browser (.command method parameters deadlineAtMs), some (.ok reply)⟩ : Event LiveBrowser) ∈ past

def ProcessSeen (past : Past) : Prop :=
  (⟨.browser .verifyProcess, .ok ()⟩ : Event LiveBrowser) ∈ past

/-- The node that the latest observation has for the element. -/
def LatestSeen (elementId : String) (stored : StoredObservation) (node : CdpNode) (past : Past) :
    Prop :=
  (⟨.browser .latest, some (some stored)⟩ : Event LiveBrowser) ∈ past ∧
    stored.nodes.lookup elementId = some node

def documentOf (build : Build) (config : CdpConfig) (frameTree : Json) : Option String := do
  let frame ← pointer frameTree ["frameTree", "frame"]
  let frameId ← requiredString frame "id"
  let loaderId ← requiredString frame "loaderId"
  some (documentIdOf build config frameId loaderId)

def objectOf (response : Json) : Option String :=
  ((pointer response ["object", "objectId"]).bind asStr).filter (· ≠ "")

section

variable (build : Build) (config : CdpConfig) (scripts : Scripts) (deadlineAtMs : Int64)

def DocumentSeen (documentId : String) (past : Past) : Prop :=
  ∃ frameTree, Replied "Page.getFrameTree" (.obj []) deadlineAtMs frameTree past ∧
    documentOf build config frameTree = some documentId

def ObjectSeen (target : NodeIdentity) (objectId : String) (past : Past) : Prop :=
  ∃ response, Replied "DOM.resolveNode" (.obj [
      ("backendNodeId", ofUInt64 target.backendNodeId),
      ("executionContextId", ofUInt64 target.executionContextId)]) deadlineAtMs response past ∧
    objectOf response = some objectId

def ViewportSeen (displayGeometryHash : String) (past : Past) : Prop :=
  ∃ layout, Replied "Page.getLayoutMetrics" (.obj []) deadlineAtMs layout past ∧
    (viewportOf layout).map (hashSerializable build) = some displayGeometryHash

/-- Exactly one node with the identifier is not ignored; it has the fingerprint, in the document
that the page has now, and can be acted on. -/
def NodeSeen (target : NodeIdentity) (requirements : LiveTargetRequirements) (past : Past) : Prop :=
  ∃ documentId tree semantics, DocumentSeen build config deadlineAtMs documentId past ∧
    Replied "Accessibility.getPartialAXTree" (.obj [
      ("backendNodeId", ofUInt64 target.backendNodeId),
      ("fetchRelatives", .bool false)]) deadlineAtMs tree past ∧
    liveAxSemantics tree target.backendNodeId = some semantics ∧
    axFingerprint build documentId target.backendNodeId semantics = target.fingerprintHash ∧
    meetsRequirements requirements semantics = true

/-- The last questions were whether the dispatch is cancelled, and whether it is late. -/
def InTime (past : Past) : Prop :=
  ∃ earlier nowMs, past = earlier ++ [⟨.browser .isCancelled, false⟩, ⟨.browser .nowMs, nowMs⟩] ∧
    nowMs < deadlineAtMs

/-- What a function is told to do for the action, and what it takes of the element. -/
def effectParameters (objectId : String) : Action → Option (Json × LiveTargetRequirements)
  | .invoke => some (invokeParameters scripts objectId, ⟨true, false⟩)
  | .setValue value => some (setValueParameters scripts objectId value, ⟨false, true⟩)
  | .scroll direction 1 => some (scrollParameters scripts objectId direction, ⟨false, false⟩)
  | _ => none

/-- The element was observed to be fit for the action. -/
def isFit (actionability : Actionability) : Action → Bool
  | .invoke => actionability.visible && actionability.enabled && actionability.invokable
  | .setValue _ => actionability.visible && actionability.enabled && actionability.editable
  | _ => actionability.visible && actionability.enabled

/-- What has been seen in this dispatch when it changes the page. -/
structure Fenced (action : Action) (elementId : String) (past : Past) (op : LiveOp) : Prop where
  unchanged : effectsOf scripts past = []
  inTime : InTime deadlineAtMs past
  process : ProcessSeen past
  element : ∃ stored node, LatestSeen elementId stored node past ∧
    isFit node.element.actionability action = true ∧
    ∃ objectId parameters requirements,
      effectParameters scripts objectId action = some (parameters, requirements) ∧
      op = .browser (.command callMethod parameters deadlineAtMs) ∧
      ObjectSeen deadlineAtMs (.fromStored node stored) objectId past ∧
      DocumentSeen build config deadlineAtMs (stored.observation.provenance.documentId.getD "") past ∧
      ViewportSeen build deadlineAtMs stored.observation.provenance.displayGeometryHash past ∧
      NodeSeen build config deadlineAtMs (.fromStored node stored) requirements past

end

/-! ### Facts that last -/

section

variable {build : Build} {config : CdpConfig} {scripts : Scripts} {deadlineAtMs : Int64}
  {quiet : LiveOp → Prop} {R S : Past → Prop}

theorem calm_and (calm : Calm scripts R) (lasting : Lasting (Quiet scripts) S) :
    Calm scripts fun past => R past ∧ S past :=
  ⟨lasting_and calm.lasting lasting, fun past known => calm.unchanged past known.1⟩

theorem lasting_replied (method : String) (parameters : Json) (reply : Json) :
    Lasting quiet (Replied method parameters deadlineAtMs reply) := lasting_mem _

theorem lasting_processSeen : Lasting quiet ProcessSeen := lasting_mem _

theorem lasting_latestSeen (elementId : String) (stored : StoredObservation) (node : CdpNode) :
    Lasting quiet (LatestSeen elementId stored node) :=
  lasting_and (lasting_mem _) (lasting_const _)

theorem lasting_documentSeen (documentId : String) :
    Lasting quiet (DocumentSeen build config deadlineAtMs documentId) :=
  lasting_exists fun _ => lasting_and (lasting_replied _ _ _) (lasting_const _)

theorem lasting_objectSeen (target : NodeIdentity) (objectId : String) :
    Lasting quiet (ObjectSeen deadlineAtMs target objectId) :=
  lasting_exists fun _ => lasting_and (lasting_replied _ _ _) (lasting_const _)

theorem lasting_viewportSeen (displayGeometryHash : String) :
    Lasting quiet (ViewportSeen build deadlineAtMs displayGeometryHash) :=
  lasting_exists fun _ => lasting_and (lasting_replied _ _ _) (lasting_const _)

theorem lasting_nodeSeen (target : NodeIdentity) (requirements : LiveTargetRequirements) :
    Lasting quiet (NodeSeen build config deadlineAtMs target requirements) := by
  refine lasting_exists fun _ => lasting_exists fun _ => lasting_exists fun _ => ?_
  exact lasting_and (lasting_documentSeen _) (lasting_and (lasting_replied _ _ _) (lasting_const _))

end

/-! ### What a probe's programs ask -/

section

variable {build : Build} {config : CdpConfig} {scripts : Scripts} {deadlineAtMs : Int64} {α : Type}
  {trace : List (Event LiveBrowser)} {events : List (Event Browser)}

/-- Only the calls of functions are not plain. -/
theorem plain_command {method : String} (other : method ≠ callMethod) (parameters : Json) :
    Plain scripts (.browser (.command method parameters deadlineAtMs)) := by
  simp [Plain, isEffect, reveals, other]

theorem plain_onBrowser {p : Prog Browser α} (only : p.Only fun op => Plain scripts (.browser op)) :
    (onBrowser p).Only (Plain scripts) :=
  only_handle only fun _ plain => ⟨plain, fun _ => trivial⟩

theorem plain_probeCommand {method : String} (other : method ≠ callMethod) (parameters : Json) :
    (probeCommand method parameters deadlineAtMs).run.Only fun op => Plain scripts (.browser op) :=
  only_try (only_query (plain_command other parameters)) fun _ =>
    only_try (only_orError _ _) fun _ => only_orFail _

theorem plain_verifyProcess : verifyProcess.run.Only fun op => Plain scripts (.browser op) :=
  only_try (only_query ⟨rfl, rfl⟩) fun _ => only_orFail _

theorem plain_currentDocumentId :
    (currentDocumentId build config deadlineAtMs).run.Only fun op => Plain scripts (.browser op) := by
  refine only_try (plain_probeCommand (by decide) _) fun _ => only_try (only_orError _ _) fun _ => ?_
  refine only_try (only_orError _ _) fun _ => only_try (only_orError _ _) fun _ => ?_
  trivial

theorem plain_resolveObject (backendNodeId executionContextId : UInt64) :
    (resolveObject backendNodeId executionContextId deadlineAtMs).run.Only
      fun op => Plain scripts (.browser op) :=
  only_try (plain_probeCommand (by decide) _) fun _ => only_orError _ _

/-- A run of such a program is one that the browser alone answers. -/
theorem steps_onBrowser {p : Prog Browser α} {value : α}
    (run : Steps (onBrowser p) trace (.ret value)) :
    ∃ events, Steps p events (.ret value) ∧
      ∀ e ∈ events, (⟨.browser e.op, e.ans⟩ : Event LiveBrowser) ∈ trace := by
  obtain ⟨events, above, same⟩ := steps_rename _ run
  refine ⟨events, above, ?_⟩
  clear above run
  induction same with
  | nil => exact List.forall_mem_nil _
  | cons first _ ih =>
    obtain ⟨ans, rfl, told⟩ := first
    refine List.forall_mem_cons.mpr ⟨?_, fun e member => List.mem_cons_of_mem _ (ih e member)⟩
    rw [told]
    exact List.mem_cons_self

theorem steps_query {ε : Type} {op : BrowserOp} {ans : Browser.Ans op}
    (run : Steps (query op : ExceptT ε (Prog Browser) _).run events (.ret (.ok ans))) :
    events = [⟨op, ans⟩] := by
  obtain ⟨ans', asked, same⟩ := steps_lift.mp run
  obtain rfl := Except.ok.inj same
  exact steps_ask.mp asked

theorem steps_orError {ε : Type} {error : ε} {value : Option α} {a : α}
    (run : Steps (orError error value).run events (.ret (.ok a))) : events = [] ∧ value = some a := by
  cases value with
  | none => nomatch (steps_ret.mp run).2
  | some a' =>
    obtain ⟨rfl, same⟩ := steps_ret.mp run
    exact ⟨rfl, congrArg some (Except.ok.inj same)⟩

theorem steps_orFail {ε : Type} {answer : Except ε α} {a : α}
    (run : Steps (orFail answer).run events (.ret (.ok a))) : events = [] ∧ answer = .ok a := by
  obtain ⟨rfl, same⟩ := steps_ret.mp run
  exact ⟨rfl, same⟩

theorem replied_probeCommand {method : String} {parameters reply : Json}
    (run : Steps (probeCommand method parameters deadlineAtMs).run events (.ret (.ok reply))) :
    events = [⟨.command method parameters deadlineAtMs, some (.ok reply)⟩] := by
  obtain ⟨_, answer, _, rfl, asked, run⟩ := steps_try_ok run
  obtain ⟨_, result, _, rfl, known, run⟩ := steps_try_ok run
  obtain ⟨rfl, same⟩ := steps_orFail run
  obtain ⟨rfl, rfl⟩ := steps_orError known
  rw [steps_query asked]
  cases result with
  | error _ => nomatch same
  | ok reply' =>
    obtain rfl := Except.ok.inj same
    rfl

theorem seen_verifyProcess (run : Steps (onBrowser verifyProcess.run) trace (.ret (.ok ()))) :
    ProcessSeen trace := by
  obtain ⟨events, above, below⟩ := steps_onBrowser run
  obtain ⟨_, verified, _, rfl, asked, run⟩ := steps_try_ok above
  obtain ⟨rfl, same⟩ := steps_orFail run
  rw [steps_query asked] at below
  cases verified with
  | error _ => nomatch same
  | ok _ => exact below _ List.mem_cons_self

theorem seen_currentDocumentId {documentId : String}
    (run : Steps (onBrowser (currentDocumentId build config deadlineAtMs).run) trace
      (.ret (.ok documentId))) : DocumentSeen build config deadlineAtMs documentId trace := by
  obtain ⟨events, above, below⟩ := steps_onBrowser run
  obtain ⟨_, frameTree, _, rfl, asked, run⟩ := steps_try_ok above
  obtain ⟨_, frame, _, rfl, framed, run⟩ := steps_try_ok run
  obtain ⟨_, frameId, _, rfl, named, run⟩ := steps_try_ok run
  obtain ⟨_, loaderId, _, rfl, loaded, run⟩ := steps_try_ok run
  obtain ⟨_, same⟩ := steps_ret.mp run
  obtain rfl := Except.ok.inj same
  rw [replied_probeCommand asked] at below
  have seen := below _ (List.mem_append_left _ List.mem_cons_self)
  refine ⟨frameTree, seen, ?_⟩
  simp [documentOf, (steps_orError framed).2, (steps_orError named).2, (steps_orError loaded).2]

theorem seen_resolveObject {target : NodeIdentity} {objectId : String}
    (run : Steps (onBrowser
      (resolveObject target.backendNodeId target.executionContextId deadlineAtMs).run) trace
      (.ret (.ok objectId))) : ObjectSeen deadlineAtMs target objectId trace := by
  obtain ⟨events, above, below⟩ := steps_onBrowser run
  obtain ⟨_, response, _, rfl, asked, run⟩ := steps_try_ok above
  rw [replied_probeCommand asked] at below
  have seen := below _ (List.mem_append_left _ List.mem_cons_self)
  exact ⟨response, seen, (steps_orError run).2⟩

end

/-! ### Looking at the page -/

section

variable {build : Build} {config : CdpConfig} {scripts : Scripts} {deadlineAtMs : Int64}
  {allows : Past → LiveOp → Prop} {fine : DispatchError → Prop} {E : DispatchError → Past → Prop}
  {R : Past → Prop} {α : Type}

/-- Plain questions are free, and so are errors of a kind, as long as the page is as it was. -/
structure Rules (scripts : Scripts) (allows : Past → LiveOp → Prop) (fine : DispatchError → Prop)
    (E : DispatchError → Past → Prop) : Prop where
  free : ∀ past op, Plain scripts op → allows past op
  fails : ∀ error past, effectsOf scripts past = [] → fine error → E error past

section

variable (rules : Rules scripts allows fine E) (calm : Calm scripts R)
include rules calm

theorem looks_throw {Q : α → Past → Prop} {error : DispatchError} (known : fine error) :
    Upholds allows E R Q (throw error) :=
  upholds_throw fun past holds => rules.fails error past (calm.unchanged past holds) known

theorem looks_ask {op : LiveOp} (plain : Plain scripts op) :
    Upholds allows E R (fun ans past => R past ∧ (⟨op, ans⟩ : Event LiveBrowser) ∈ past) (live op) :=
  upholds_ask calm.lasting plain.1 fun past _ => rules.free past op plain

theorem looks_present {error : DispatchError} (known : fine error) (value : Option α) :
    Upholds allows E R (fun a past => R past ∧ value = some a) (present error value) := by
  cases value with
  | none => exact looks_throw rules calm known
  | some a => exact upholds_pure fun _ holds => ⟨holds, rfl⟩

theorem looks_told {ε : Type} {error : DispatchError} (known : fine error) (result : Except ε α) :
    Upholds allows E R (fun a past => R past ∧ result = .ok a) (told error result) := by
  cases result with
  | error _ => exact looks_throw rules calm known
  | ok a => exact upholds_pure fun _ holds => ⟨holds, rfl⟩

omit rules in
/-- What was learned of a step is known in what follows. -/
theorem looks_then {β : Type} {F : α → Past → Prop} {S : β → Past → Prop} {x : EffectM α}
    {f : α → EffectM β} (first : Upholds allows E R (fun a past => R past ∧ F a past) x)
    (lasting : ∀ a, Lasting (Quiet scripts) (F a))
    (rest : ∀ a, Calm scripts (fun past => R past ∧ F a past) →
      Upholds allows E (fun past => R past ∧ F a past) S (f a)) :
    Upholds allows E R S (x >>= f) :=
  upholds_bind first fun a => rest a (calm_and calm (lasting a))

end

/-- Errors that do not leave the effect open. -/
abbrev Harmless (error : DispatchError) : Prop := error.effect ≠ .unknown

variable (rules : Rules scripts allows Harmless E) (calm : Calm scripts R)
include rules calm

/-- A check that went well was the last thing before what follows. -/
theorem looks_inTime :
    Upholds allows E R (fun _ past => R past ∧ InTime deadlineAtMs past)
      (checkEffectBoundary deadlineAtMs) := by
  intro past known
  have token : Plain scripts (.browser .isCancelled) := ⟨rfl, rfl⟩
  have clock : Plain scripts (.browser .nowMs) := ⟨rfl, rfl⟩
  unfold checkEffectBoundary
  refine judged_bind (judged_ask (rules.free past _ token) fun cancelled => ?_)
  have asked := calm.lasting past ⟨.browser .isCancelled, cancelled⟩ token.1 known
  cases cancelled with
  | true => exact looks_throw rules calm (by decide) _ asked
  | false =>
    refine judged_bind (judged_ask (rules.free _ _ clock) fun nowMs => ?_)
    have read := calm.lasting _ ⟨.browser .nowMs, nowMs⟩ clock.1 asked
    by_cases late : deadlineAtMs ≤ nowMs
    · simp only [late, if_true]
      exact looks_throw rules calm (by decide) _ read
    · simp only [late, if_false]
      refine judged_pure ⟨read, past, nowMs, ?_, Int64.not_le.mp late⟩
      simp [remember]

theorem looks_check :
    Upholds allows E R (fun _ => R) (checkEffectBoundary deadlineAtMs) :=
  upholds_mono (looks_inTime rules calm) fun _ _ => And.left

/-- What is asked between two boundaries is in the past. -/
theorem looks_between {error : DispatchError} (known : Harmless error) {x : ProbeM α}
    (plain : (onBrowser x.run).Only (Plain scripts)) :
    Upholds allows E R (fun a past => R past ∧ ∃ trace, Steps (onBrowser x.run) trace (.ret (.ok a)) ∧
      ∀ e ∈ trace, e ∈ past) (betweenBoundaries deadlineAtMs error x) := by
  have lasting : Lasting (Plain scripts) R := lasting_mono calm.lasting fun op => And.left
  refine upholds_bind (looks_check rules calm) fun _ => ?_
  refine upholds_bind (upholds_ran lasting plain fun past op _ => rules.free past op) fun result => ?_
  have ran : Lasting (Quiet scripts) fun past => ∃ trace, Steps (onBrowser x.run) trace (.ret result) ∧
      ∀ e ∈ trace, e ∈ past := by
    rintro past e _ ⟨trace, run, kept⟩
    exact ⟨trace, run, fun e member => List.mem_append_left _ (kept e member)⟩
  have calm := calm_and calm ran
  refine upholds_bind (looks_check rules calm) fun _ => ?_
  refine upholds_mono (looks_told rules calm known result) ?_
  rintro a past ⟨⟨holds, seen⟩, rfl⟩
  exact ⟨holds, seen⟩

/-- A command that neither changes the page nor reveals anything without leave. -/
theorem looks_query {method : String} {parameters : Json}
    (quiet : Quiet scripts (.browser (.command method parameters deadlineAtMs)))
    (allowed : ∀ past, R past → allows past (.browser (.command method parameters deadlineAtMs))) :
    Upholds allows E R
      (fun reply past => R past ∧ Replied method parameters deadlineAtMs reply past)
      (queryForEffect deadlineAtMs method parameters) := by
  refine upholds_bind (looks_check rules calm) fun _ => ?_
  refine upholds_bind (upholds_ask calm.lasting quiet allowed) fun answer => ?_
  have calm := calm_and calm (lasting_mem (⟨_, answer⟩ : Event LiveBrowser))
  refine upholds_bind (looks_present rules calm (by decide) answer) fun result => ?_
  have calm := calm_and calm (lasting_const (answer = some result))
  refine upholds_bind (looks_check rules calm) fun _ => ?_
  refine upholds_mono (looks_told rules calm (by decide) result) ?_
  rintro reply past ⟨⟨⟨holds, member⟩, rfl⟩, rfl⟩
  exact ⟨holds, member⟩

/-! ### The element again -/

theorem looks_process :
    Upholds allows E R (fun _ past => R past ∧ ProcessSeen past)
      (verifyProcessForEffect deadlineAtMs) := by
  refine upholds_mono (looks_between rules calm (by decide) (plain_onBrowser plain_verifyProcess)) ?_
  rintro _ past ⟨holds, trace, run, kept⟩
  exact ⟨holds, kept _ (seen_verifyProcess run)⟩

theorem looks_document :
    Upholds allows E R
      (fun documentId past => R past ∧ DocumentSeen build config deadlineAtMs documentId past)
      (currentDocumentIdForEffect build config deadlineAtMs) := by
  refine upholds_mono
    (looks_between rules calm (by decide) (plain_onBrowser plain_currentDocumentId)) ?_
  rintro documentId past ⟨holds, trace, run, kept⟩
  obtain ⟨frameTree, member, same⟩ := seen_currentDocumentId run
  exact ⟨holds, frameTree, kept _ member, same⟩

theorem looks_object (target : NodeIdentity) :
    Upholds allows E R
      (fun objectId past => R past ∧ ObjectSeen deadlineAtMs target objectId past)
      (resolveObjectForEffect deadlineAtMs target.backendNodeId target.executionContextId) := by
  refine upholds_mono
    (looks_between rules calm (by decide) (plain_onBrowser (plain_resolveObject _ _))) ?_
  rintro objectId past ⟨holds, trace, run, kept⟩
  obtain ⟨response, member, same⟩ := seen_resolveObject run
  exact ⟨holds, response, kept _ member, same⟩

/-- A command that calls no function. -/
theorem looks_command {method : String} (other : method ≠ callMethod) (parameters : Json) :
    Upholds allows E R
      (fun reply past => R past ∧ Replied method parameters deadlineAtMs reply past)
      (queryForEffect deadlineAtMs method parameters) :=
  looks_query rules calm (plain_command other parameters).1 fun past _ =>
    rules.free past _ (plain_command other parameters)

theorem looks_node (target : NodeIdentity) (requirements : LiveTargetRequirements) :
    Upholds allows E R (fun _ past => R past ∧
        ViewportSeen build deadlineAtMs target.displayGeometryHash past ∧
        NodeSeen build config deadlineAtMs target requirements past)
      (verifyLiveTargetForEffect build config deadlineAtMs target requirements) := by
  unfold verifyLiveTargetForEffect
  refine looks_then calm (looks_command rules calm (by decide) _) (fun _ => lasting_replied _ _ _)
    fun layout calm => ?_
  refine looks_then calm (looks_present rules calm (by decide) _) (fun _ => lasting_const _)
    fun viewport calm => ?_
  refine upholds_ite (fun _ => looks_throw rules calm (by decide)) fun same => ?_
  refine looks_then calm (looks_document rules calm) lasting_documentSeen fun documentId calm => ?_
  refine looks_then calm (looks_command rules calm (by decide) _) (fun _ => lasting_replied _ _ _)
    fun tree calm => ?_
  have known : (liveAxError tree target.backendNodeId).effect ≠ .unknown := by
    unfold liveAxError
    repeat (first | split | decide)
  refine looks_then calm (looks_present rules calm known _) (fun _ => lasting_const _)
    fun semantics calm => ?_
  refine upholds_ite (fun _ => looks_throw rules calm (by decide)) fun met => upholds_pure ?_
  rintro past ⟨⟨⟨⟨⟨holds, replied⟩, found⟩, document⟩, treed⟩, live⟩
  obtain ⟨fingerprint, met⟩ := not_or.mp met
  have viewed : (viewportOf layout).map (hashSerializable build) = some target.displayGeometryHash := by
    simp [found, not_not.mp same]
  exact ⟨holds, ⟨layout, replied, viewed⟩, documentId, tree, semantics, document, treed, live,
    not_not.mp fingerprint, not_not.mp met⟩

end

end Praefectus.Cdp.CdpExecutor
