import Praefectus.Native.Executor
import Praefectus.Observe.LinuxEffect
import Praefectus.Observe.LinuxSeen
import Praefectus.Program.Planned

/-!
# The fence of an effect on Linux

A provider is asked for an effect once at most, and only after its object was found for the
target, seen fit and looked at again. An error that does not leave the effect open says that it
was not asked for.
-/

namespace Praefectus.Atspi

open Prog Native

abbrev EffectPast := List (Event EffectBus)

/-! ### What was asked for -/

def isEffect : EffectOp → Bool
  | .effect _ => true
  | .target _ => false

/-- The effect came about. -/
def accepted : Event EffectBus → Bool
  | ⟨.effect _, dispatched⟩ => dispatched.toOption = some true
  | ⟨.target _, _⟩ => true

def effectWork : Steppers EffectBus := ⟨isEffect, accepted⟩

abbrev Unchanged (past : EffectPast) : Prop := effectWork.taken past = []

/-- What a past says of the target. -/
def seenBy (past : EffectPast) (e : Event TargetBus) : Prop :=
  (⟨.target e.op, e.ans⟩ : Event EffectBus) ∈ past

def deadlineOf : SemanticCall → Int64
  | .invoke _ deadlineAtMs | .setValue _ _ deadlineAtMs | .scroll _ _ deadlineAtMs => deadlineAtMs

/-- What a call changes of the object that was found. -/
def effectOf (object : StoredObject) (sample : NodeSample) : SemanticCall → Option Effect
  | .invoke .. => sample.invokeAction.map fun action => .doAction object action.index
  | .setValue _ value _ => some (.setTextContents object value)
  | .scroll .. => none

def isFit (sample : NodeSample) : SemanticCall → Bool
  | .invoke .. => isActionable sample.actionability && sample.actionability.invokable
  | .setValue .. =>
    isActionable sample.actionability && sample.actionability.editable && sample.valueHash.isSome
  | .scroll .. => false

/-- The actions of an object that is to be invoked are the ones it was sampled with. -/
def SameActions (seen : Event TargetBus → Prop) (object : StoredObject) (sample : NodeSample) :
    SemanticCall → Prop
  | .invoke .. => ActionsSeen seen object sample.identity.actions
  | _ => True

/-- The last questions were whether the dispatch is cancelled, and whether it is late. -/
def InTime (deadlineAtMs : Int64) (past : EffectPast) : Prop :=
  ∃ (earlier : EffectPast) (nowMs : Int64), nowMs < deadlineAtMs ∧
    past = earlier ++ [⟨.target (.bus .isCancelled), false⟩, ⟨.target (.bus .nowMs), nowMs⟩]

section

variable (bit : State → UInt64) (bus : Bus) (build : Build)

/-- What was seen in a dispatch that asks for an effect. -/
structure Fenced (call : SemanticCall) (past : EffectPast) (effect : Effect) : Prop where
  unchanged : Unchanged past
  inTime : InTime (deadlineOf call) past
  found : ∃ stored object sample earlier since, past = earlier ++ since ∧
    Resolved bit bus build (seenBy earlier) call.target stored object sample ∧
    isFit sample call = true ∧ effectOf object sample call = some effect ∧
    Ascends bus (seenBy since) stored.window
      ⟨stored.window.busName, stored.processId, stored.processGeneration⟩ object ∧
    SameActions (seenBy since) object sample call

/-- The call, done by the accessibility of Linux. -/
def semantic : SemanticCall → EffectM DispatchReceipt
  | .invoke target deadlineAtMs => semanticInvoke deadlineAtMs bit bus build target
  | .setValue target value deadlineAtMs => semanticSetValue deadlineAtMs bit bus build target value
  | .scroll .. => throw (.unsupported "semantic action is unavailable")

end

/-! ### Evidence lasts -/

section

variable {bus : Bus} {seen seen' : Event TargetBus → Prop}

theorem Ascends.mono {root object : StoredObject} {owner : Owner}
    (ascends : Ascends bus seen root owner object) (more : ∀ e, seen e → seen' e) :
    Ascends bus seen' root owner object := by
  have owned {object : StoredObject} (owned : OwnerSeen seen owner object) :
      OwnerSeen seen' owner object :=
    ⟨owned.busName, more _ owned.process, more _ owned.generation⟩
  induction ascends with
  | here known => exact .here (owned known)
  | up known told same _ ih => exact .up (owned known) (more _ told) same ih

theorem ActionsSeen.mono {object : StoredObject} {names : List String}
    (actions : ActionsSeen seen object names) (more : ∀ e, seen e → seen' e) :
    ActionsSeen seen' object names := by
  obtain ⟨count, told, positive, below, each⟩ := actions
  exact ⟨count, more _ told, positive, below, each.imp fun _ _ => more _⟩

/-- What was seen stays seen. -/
theorem lasting_seen {quiet : EffectOp → Prop} {P : (Event TargetBus → Prop) → Prop}
    (mono : ∀ seen seen', (∀ e, seen e → seen' e) → P seen → P seen') :
    Lasting quiet fun past => P (seenBy past) :=
  fun _ _ _ known => mono _ _ (fun _ member => List.mem_append_left _ member) known

end

/-! ### Looking at the target -/

section

/-- Looks are free, and so are errors before the effect, or after it where they leave it open. -/
structure Rules (allows : EffectPast → EffectOp → Prop) (E : DispatchError → EffectPast → Prop) :
    Prop where
  free : ∀ past op, effectWork.Idle op → allows past op
  fails : ∀ error past, error.effect ≠ .unknown → Unchanged past → E error past
  unknown : ∀ error past e, error.effect = .unknown → effectWork.taken past = [e] → E error past

/-- What is known before the effect. -/
structure Calm (R : EffectPast → Prop) : Prop where
  lasting : Lasting effectWork.Idle R
  unchanged : ∀ past, R past → Unchanged past

variable {allows : EffectPast → EffectOp → Prop} {E : DispatchError → EffectPast → Prop}
  {R S : EffectPast → Prop} {deadlineAtMs : Int64} {α : Type}

theorem calm_unchanged : Calm Unchanged where
  lasting := Steppers.lasting_taken
  unchanged _ := id

theorem calm_and (calm : Calm R) (lasting : Lasting effectWork.Idle S) :
    Calm fun past => R past ∧ S past :=
  ⟨lasting_and calm.lasting lasting, fun past known => calm.unchanged past known.1⟩

theorem idle_askEffect {op : EffectOp} (idle : effectWork.Idle op) :
    (askEffect op).Only effectWork.Idle := ⟨idle, fun _ => trivial⟩

theorem idle_onTarget (p : Prog TargetBus α) : (onTarget p).Only effectWork.Idle := by
  induction p with
  | ret value => trivial
  | ask op next ih => exact ⟨rfl, ih⟩

/-- A program about the target was run, by answers that are in the past. -/
theorem seen_onTarget {p : Prog TargetBus α} {trace past : EffectPast} {value : α}
    (run : Steps (onTarget p) trace (.ret value)) (kept : ∀ e ∈ trace, e ∈ past) :
    ∃ events, Steps p events (.ret value) ∧ ∀ e ∈ events, seenBy past e := by
  obtain ⟨events, above, each⟩ := steps_rename _ run
  refine ⟨events, above, ?_⟩
  clear above run
  induction each with
  | nil => exact List.forall_mem_nil _
  | cons first _ ih =>
    obtain ⟨ans, rfl, told⟩ := first
    obtain ⟨here, rest⟩ := List.forall_mem_cons.mp kept
    refine List.forall_mem_cons.mpr ⟨?_, ih rest⟩
    rw [seenBy, told]
    exact here

theorem idle_protocolBeforeEffect : (protocolBeforeEffect deadlineAtMs).Only effectWork.Idle := by
  apply only_bind (idle_askEffect rfl)
  intro cancelled
  cases cancelled with
  | true => trivial
  | false =>
    apply only_bind (idle_askEffect rfl)
    intro nowMs
    by_cases late : nowMs ≥ deadlineAtMs
    · simp only [late, if_true]
      trivial
    · simp only [late, if_false]
      trivial

/-- An error from before the effect does not leave it open. -/
theorem known_protocolBeforeEffect {trace : EffectPast} {error : DispatchError}
    (run : Steps (protocolBeforeEffect deadlineAtMs) trace (.ret error)) :
    error.effect ≠ .unknown := by
  -- Cancelled, late or neither, and none of the three errors leaves the effect open.
  obtain ⟨_, cancelled, _, _, _, run⟩ := steps_bind.mp run
  cases cancelled with
  | true =>
    obtain ⟨_, rfl⟩ := steps_ret.mp run
    decide
  | false =>
    obtain ⟨_, nowMs, _, _, _, run⟩ := steps_bind.mp run
    by_cases late : nowMs ≥ deadlineAtMs
    · simp only [late, if_true] at run
      obtain ⟨_, rfl⟩ := steps_ret.mp run
      decide
    · simp only [late, if_false] at run
      obtain ⟨_, rfl⟩ := steps_ret.mp run
      decide

variable (rules : Rules allows E) (calm : Calm R)
include rules calm

theorem looks_throw {Q : α → EffectPast → Prop} {error : DispatchError}
    (known : error.effect ≠ .unknown) : Upholds allows E R Q (throw error) :=
  upholds_throw fun past holds => rules.fails error past known (calm.unchanged past holds)

/-- What is run for the target leaves what its answers say. -/
theorem looks_onTarget (p : Prog TargetBus α) :
    Upholds allows E R
      (fun value past => R past ∧ ∃ events, Steps p events (.ret value) ∧ ∀ e ∈ events, seenBy past e)
      (monadLift (onTarget p)) := by
  apply upholds_mono
  · exact upholds_ran calm.lasting (idle_onTarget p) fun past op _ => rules.free past op
  · rintro value past ⟨known, trace, run, kept⟩
    exact ⟨known, seen_onTarget run kept⟩

theorem looks_beforeEffect {P : (Event TargetBus → Prop) → α → Prop} {x : TargetM α}
    (sees : ∀ seen, Sees seen (P seen) x) :
    Upholds allows E R (fun value past => R past ∧ P (seenBy past) value)
      (beforeEffect deadlineAtMs x) := by
  apply upholds_bind (looks_onTarget rules calm x.run)
  intro result
  cases result with
  | ok value =>
    apply upholds_pure
    rintro past ⟨known, events, run, answered⟩
    exact ⟨known, finds_run (sees (seenBy past)) answered run⟩
  | error error =>
    -- What is asked after an error only decides which error is told.
    apply upholds_of R fun _ known => known.1
    apply upholds_bind (upholds_ran calm.lasting idle_protocolBeforeEffect fun past op _ =>
      rules.free past op)
    rintro told past ⟨known, trace, run, _⟩
    exact looks_throw rules calm (known_protocolBeforeEffect run) past known

theorem looks_proxyForEffect (x : TargetM Unit) :
    Upholds allows E R (fun _ => R) (proxyForEffect x) := by
  apply upholds_bind (looks_onTarget rules calm x.run)
  intro result
  apply upholds_of R fun _ known => known.1
  cases result with
  | ok value => exact upholds_pure fun _ => id
  | error error => exact looks_throw rules calm (by decide)

theorem looks_inTime :
    Upholds allows E R (fun _ past => R past ∧ InTime deadlineAtMs past)
      (checkDispatchBoundary deadlineAtMs) := by
  intro past known
  refine judged_bind (judged_ask (rules.free past (.target (.bus .isCancelled)) rfl) fun stop => ?_)
  have asked := calm.lasting past ⟨.target (.bus .isCancelled), stop⟩ rfl known
  cases stop with
  | true => exact looks_throw rules calm (by decide) _ asked
  | false =>
    refine judged_bind (judged_ask (rules.free _ (.target (.bus .nowMs)) rfl) fun nowMs => ?_)
    have read := calm.lasting _ ⟨.target (.bus .nowMs), nowMs⟩ rfl asked
    by_cases late : deadlineAtMs ≤ nowMs
    · simp only [late, if_true]
      exact looks_throw rules calm (by decide) _ read
    · simp only [late, if_false]
      refine judged_pure ⟨read, past, nowMs, Int64.not_le.mp late, ?_⟩
      simp [remember]

theorem looks_check :
    Upholds allows E R (fun _ => R) (checkDispatchBoundary deadlineAtMs) :=
  upholds_mono (looks_inTime rules calm) fun _ _ => And.left

end

/-! ### The effect -/

section

/-- The effect was asked for once, and came about in time. -/
def Came (deadlineAtMs : Int64) (effect : Effect) (past : EffectPast) : Prop :=
  effectWork.taken past = [⟨.effect effect, .ok true⟩] ∧ InTime deadlineAtMs past

variable {allows : EffectPast → EffectOp → Prop} {E : DispatchError → EffectPast → Prop}
  {R : EffectPast → Prop} {deadlineAtMs : Int64} {effect : Effect}

/-- The last questions, of a dispatch that goes on. -/
theorem looks_isInterrupted (rules : Rules allows E) (lasting : Lasting effectWork.Idle R) :
    Upholds allows E R
      (fun interrupted past => R past ∧ (interrupted = false → InTime deadlineAtMs past))
      (isInterrupted effectBoundary deadlineAtMs) := by
  intro past known
  refine judged_bind (judged_ask (rules.free past (.target (.bus .isCancelled)) rfl) fun stop => ?_)
  have asked := lasting past ⟨.target (.bus .isCancelled), stop⟩ rfl known
  cases stop with
  | true => exact judged_pure ⟨asked, fun other => nomatch other⟩
  | false =>
    refine judged_bind (judged_ask (rules.free _ (.target (.bus .nowMs)) rfl) fun nowMs => ?_)
    have read := lasting _ ⟨.target (.bus .nowMs), nowMs⟩ rfl asked
    refine judged_pure ⟨read, fun early => ?_⟩
    have early : nowMs < deadlineAtMs := Int64.not_le.mp (of_decide_eq_false early)
    refine ⟨past, nowMs, early, ?_⟩
    simp [remember]

theorem looks_dispatchEffect (rules : Rules allows E) (calm : Calm R)
    (fenced : ∀ past, R past → InTime deadlineAtMs past → allows past (.effect effect)) :
    Upholds allows E R (fun told past => told = receipt ∧ Came deadlineAtMs effect past)
      (dispatchEffect deadlineAtMs effect) := by
  apply upholds_bind (looks_inTime rules calm)
  intro _
  have asked : Upholds allows E (fun past => R past ∧ InTime deadlineAtMs past)
      (fun dispatched past => effectWork.taken past = [⟨.effect effect, dispatched⟩])
      (monadLift (askEffect (.effect effect)) : EffectM (Except NativeError Bool)) := by
    rintro past ⟨known, inTime⟩
    apply judged_ask (fenced past known inTime)
    intro dispatched
    -- Nothing was asked for before, so this effect is the only one.
    have none := calm.unchanged past known
    rw [remember, Steppers.taken_append, none, Steppers.taken_step rfl]
    rfl
  apply upholds_bind asked
  intro dispatched
  apply upholds_ite
  · intro came
    obtain rfl : dispatched = .ok true := by
      cases dispatched with
      | error e => nomatch came
      | ok value => exact congrArg Except.ok (Option.some.inj came)
    apply upholds_bind (upholds_bind (looks_isInterrupted rules Steppers.lasting_taken) ?_)
    · exact fun _ => upholds_pure fun _ known => ⟨rfl, known⟩
    intro interrupted
    -- An effect that came about too late is left open.
    cases interrupted with
    | true => exact upholds_throw fun past known => rules.unknown _ past _ rfl known.1
    | false => exact upholds_pure fun past known => ⟨known.1, known.2 rfl⟩
  · intro _
    exact upholds_throw fun past known => rules.unknown _ past _ rfl known

end

/-! ### After the resolution -/

section

variable {bit : State → UInt64} {bus : Bus} {build : Build}
  {allows : EffectPast → EffectOp → Prop} {E : DispatchError → EffectPast → Prop}
  {earlier since : EffectPast} {deadlineAtMs : Int64} {call : SemanticCall} {effect : Effect}
  {stored : StoredSnapshot} {object : StoredObject} {sample : NodeSample}

theorem unchanged_append (before : Unchanged earlier) (after : Unchanged since) :
    Unchanged (earlier ++ since) := by
  rw [Unchanged, Steppers.taken_append, before, after, List.append_nil]

theorem inTime_append (inTime : InTime deadlineAtMs since) : InTime deadlineAtMs (earlier ++ since) := by
  obtain ⟨before, nowMs, early, rfl⟩ := inTime
  exact ⟨earlier ++ before, nowMs, early, by simp⟩

theorem rules_after (rules : Rules allows E) (before : Unchanged earlier) :
    Rules (fun since => allows (earlier ++ since)) (fun error since => E error (earlier ++ since)) where
  free since op idle := rules.free _ op idle
  fails error since known after := rules.fails error _ known (unchanged_append before after)
  unknown error since e unknown only := by
    apply rules.unknown error _ e unknown
    rw [Steppers.taken_append, before, List.nil_append, only]

/-- What is known once the target was found. -/
structure Found (bit : State → UInt64) (bus : Bus) (build : Build) (call : SemanticCall)
    (earlier : EffectPast) (stored : StoredSnapshot) (object : StoredObject) (sample : NodeSample) :
    Prop where
  unchanged : Unchanged earlier
  resolved : Resolved bit bus build (seenBy earlier) call.target stored object sample

/-- The object is still on its way up to the window. -/
abbrev Below (bus : Bus) (stored : StoredSnapshot) (object : StoredObject) (since : EffectPast) :
    Prop :=
  Ascends bus (seenBy since) stored.window
    ⟨stored.window.busName, stored.processId, stored.processGeneration⟩ object

/-- The fence, of what was seen before and since. -/
theorem fenced_since (found : Found bit bus build call earlier stored object sample)
    (unchanged : Unchanged since) (inTime : InTime (deadlineOf call) since)
    (fit : isFit sample call = true) (told : effectOf object sample call = some effect)
    (below : Below bus stored object since) (same : SameActions (seenBy since) object sample call) :
    Fenced bit bus build call (earlier ++ since) effect where
  unchanged := unchanged_append found.unchanged unchanged
  inTime := inTime_append inTime
  found := ⟨stored, object, sample, earlier, since, rfl, found.resolved, fit, told, below, same⟩

theorem lasting_below (bus : Bus) (stored : StoredSnapshot) (object : StoredObject) :
    Lasting effectWork.Idle (Below bus stored object) :=
  lasting_seen (P := fun seen => Ascends bus seen stored.window _ object)
    fun _ _ more ascends => ascends.mono more

theorem lasting_actions (object : StoredObject) (names : List String) :
    Lasting effectWork.Idle fun since => ActionsSeen (seenBy since) object names :=
  lasting_seen (P := fun seen => ActionsSeen seen object names) fun _ _ more actions => actions.mono more

/-- A dispatch since the target was found has asked for its effect, or tells why not. -/
abbrev Acts (allows : EffectPast → EffectOp → Prop) (E : DispatchError → EffectPast → Prop)
    (call : SemanticCall) (earlier : EffectPast) (x : EffectM DispatchReceipt) : Prop :=
  Upholds (fun since => allows (earlier ++ since)) (fun error since => E error (earlier ++ since))
    Unchanged (fun told since => told = receipt ∧ ∃ effect, Came (deadlineOf call) effect since) x

theorem acts_invokeSample {target : SemanticTargetRef} (rules : Rules allows E)
    (fence : ∀ past effect, Fenced bit bus build (.invoke target deadlineAtMs) past effect →
      allows past (.effect effect))
    (found : Found bit bus build (.invoke target deadlineAtMs) earlier stored object sample) :
    Acts allows E (.invoke target deadlineAtMs) earlier
      (invokeSample deadlineAtMs bus stored object sample) := by
  have rules := rules_after rules found.unchanged
  have calm := calm_unchanged
  unfold invokeSample
  apply upholds_ite
  · exact fun _ => looks_throw rules calm (by decide)
  intro fit
  apply upholds_bind (looks_check rules calm)
  intro _
  apply upholds_bind (looks_proxyForEffect rules calm _)
  intro _
  cases named : sample.invokeAction with
  | none => exact looks_throw rules calm (by decide)
  | some expectedAction =>
    -- The names are read before the way up and once more after it.
    apply upholds_bind (looks_beforeEffect rules calm fun _ => sees_actionNames)
    intro liveActions
    have calm := calm_and calm (lasting_actions object liveActions)
    apply upholds_ite
    · exact fun _ => looks_throw rules calm (by decide)
    intro same
    apply upholds_bind
      (looks_beforeEffect rules calm fun _ => sees_atspi sees_validateLiveDescendant)
    intro _
    have calm := calm_and calm (lasting_below bus stored object)
    apply upholds_bind (looks_beforeEffect rules calm fun _ => sees_actionNames)
    intro actionsAgain
    have calm := calm_and calm (lasting_actions object actionsAgain)
    apply upholds_ite
    · exact fun _ => looks_throw rules calm (by decide)
    intro again
    apply upholds_mono (looks_dispatchEffect rules calm ?_)
    · exact fun told since came => ⟨came.1, _, came.2⟩
    -- All that was seen since then has lasted up to the effect.
    rintro since ⟨⟨⟨unchanged, actions⟩, below⟩, _⟩ inTime
    apply fence
    simp only [Bool.or_eq_true, decide_eq_true_eq, not_or, not_not] at same
    apply fenced_since found unchanged inTime _ _ below
    · change ActionsSeen (seenBy since) object sample.identity.actions
      rwa [← same.1]
    · simpa [isFit, Bool.and_assoc] using fit
    · simp [effectOf, named]

theorem acts_setSample {target : SemanticTargetRef} {value : String} (rules : Rules allows E)
    (fence : ∀ past effect, Fenced bit bus build (.setValue target value deadlineAtMs) past effect →
      allows past (.effect effect))
    (found : Found bit bus build (.setValue target value deadlineAtMs) earlier stored object sample) :
    Acts allows E (.setValue target value deadlineAtMs) earlier
      (setSample deadlineAtMs bus value stored object sample) := by
  have rules := rules_after rules found.unchanged
  have calm := calm_unchanged
  unfold setSample
  apply upholds_ite
  · exact fun _ => looks_throw rules calm (by decide)
  intro fit
  apply upholds_bind (looks_check rules calm)
  intro _
  apply upholds_bind (looks_proxyForEffect rules calm _)
  intro _
  apply upholds_bind (looks_beforeEffect rules calm fun _ => sees_atspi sees_validateLiveDescendant)
  intro _
  have calm := calm_and calm (lasting_below bus stored object)
  apply upholds_mono (looks_dispatchEffect rules calm ?_)
  · exact fun told since came => ⟨came.1, _, came.2⟩
  rintro since ⟨unchanged, below⟩ inTime
  apply fence
  apply fenced_since found unchanged inTime _ rfl below trivial
  cases hash : sample.valueHash with
  | none => simp [hash] at fit
  | some _ => simpa [isFit, hash] using fit

/-! ### Every dispatch -/

/-- Nothing was asked for, or the only effect is left open. -/
def Told (error : DispatchError) (past : EffectPast) : Prop :=
  error.effect ≠ .unknown ∧ Unchanged past ∨ error.effect = .unknown ∧ ∃ e, effectWork.taken past = [e]

/-- An effect has a fence. -/
def Allowed (bit : State → UInt64) (bus : Bus) (build : Build) (call : SemanticCall)
    (past : EffectPast) (op : EffectOp) : Prop :=
  ∀ effect, op = .effect effect → Fenced bit bus build call past effect

theorem rules_allowed : Rules (Allowed bit bus build call) Told where
  free _ op idle effect same := by
    rw [same] at idle
    exact absurd idle.symm Bool.false_ne_true
  fails _ _ known unchanged := .inl ⟨known, unchanged⟩
  unknown _ _ e unknown only := .inr ⟨unknown, e, only⟩

theorem fence_allowed (past : EffectPast) (effect : Effect)
    (fenced : Fenced bit bus build call past effect) :
    Allowed bit bus build call past (.effect effect) := by
  rintro _ ⟨⟩
  exact fenced

/-- The dispatch from the resolution on. -/
theorem upholds_resolved {includeValue : Bool}
    {f : StoredSnapshot × StoredObject × NodeSample → EffectM DispatchReceipt}
    (acts : ∀ {earlier stored object sample}, Found bit bus build call earlier stored object sample →
      Acts (Allowed bit bus build call) Told call earlier (f (stored, object, sample))) :
    Upholds (Allowed bit bus build call) Told Unchanged
      (fun told past => told = receipt ∧ ∃ effect, Came (deadlineOf call) effect past)
      (beforeEffect (deadlineOf call)
        (resolveLive bit (deadlineOf call) bus build call.target includeValue) >>= f) := by
  apply upholds_bind (looks_beforeEffect rules_allowed calm_unchanged fun _ => sees_resolveLive)
  rintro ⟨stored, object, sample⟩ earlier ⟨unchanged, resolved⟩
  have after := upholds_after earlier (acts ⟨unchanged, resolved⟩)
  refine upholds_mono after ?_ earlier ⟨[], by simp, rfl⟩
  rintro told _ ⟨since, rfl, same, effect, only, inTime⟩
  refine ⟨same, effect, ?_, inTime_append inTime⟩
  rw [Steppers.taken_append, unchanged, only, List.nil_append]

theorem upholds_semantic :
    Upholds (Allowed bit bus build call) Told Unchanged
      (fun told past => told = receipt ∧ ∃ effect, Came (deadlineOf call) effect past)
      (semantic bit bus build call) := by
  cases call with
  | invoke target deadlineAtMs =>
    exact upholds_resolved fun found => acts_invokeSample rules_allowed fence_allowed found
  | setValue target value deadlineAtMs =>
    apply upholds_ite
    · exact fun _ => looks_throw rules_allowed calm_unchanged (by decide)
    · intro _
      exact @upholds_resolved _ _ _ (.setValue target value deadlineAtMs) _ _ fun found =>
        acts_setSample rules_allowed fence_allowed found
  | scroll => exact looks_throw rules_allowed calm_unchanged (by decide)

end

/-! ### A button that is clicked -/

def buttonBuild : Build := ⟨false, Sha256.sha256⟩

def shownStates : StateSet := [.visible, .showing, .enabled, .sensitive]

def buttonWindow : SurfaceIdentity :=
  ⟨chainId 0, 23, "frame", none, none, surfaceStates stateBit shownStates⟩

def buttonIdentity : NodeIdentity where
  backendId := chainId 1
  role := "push button"
  name := none
  bounds := none
  relevantStates := relevantStates stateBit shownStates
  interfaces := 1
  actions := ["click"]

def buttonGeometry : String := hashSerializable buttonBuild (.str "geometry")

def buttonObservationId : String := hashSerializable buttonBuild (.str "observation")

def buttonElement : SemanticElement where
  tag := "e0"
  elementId := hashBytes buttonBuild (buttonObservationId.asBytes ++ [0] ++ (chainId 1).asBytes)
  parentId := none
  fingerprintHash := hashSerializable buttonBuild buttonIdentity.toJson
  role := "push button"
  name := none
  bounds := none
  actionability := ⟨true, true, true, true, false, true, false⟩

def buttonStored : StoredSnapshot where
  protocolVersion := Praefectus.protocolVersion
  observation := {
    protocolVersion := Praefectus.protocolVersion
    observationId := buttonObservationId
    generation := 1
    provenance := {
      backend := .accessibility
      backendName := backend
      processId := 4242
      processGeneration := "generation"
      windowId := hashSerializable buttonBuild (.str (chainId 0))
      documentId := none
      displayGeometryHash := buttonGeometry
      hostOptIns := [] }
    observedAtMs := 1000
    expiresAtMs := 31000
    truncated := false
    elements := [buttonElement] }
  targets := [(buttonElement.elementId, ⟨chainObject 1, some ⟨0, "click"⟩⟩)]
  window := chainObject 0
  windowFingerprintHash := hashSerializable buttonBuild buttonWindow.toJson
  processId := 4242
  processGeneration := "generation"

def buttonTarget : SemanticTargetRef where
  observationId := buttonObservationId
  generation := 1
  provenanceHash := buttonStored.observation.provenanceHash buttonBuild
  elementId := buttonElement.elementId
  fingerprintHash := buttonElement.fingerprintHash

/-- A window with a button, which nothing changes. -/
def buttonAnswer : (op : EffectOp) → EffectBus.Ans op
  | .target (.bus .displayGeometryHash) => Except.ok buttonGeometry
  | .target (.bus op) => chainAnswer op
  | .target .latest => Except.ok (some buttonStored)
  | .target (.loadPrivateObservation _) => Except.error executorError
  | .target (.call (.getRole _)) => Except.ok (23 : UInt32)
  | .target (.call (.getRoleName object)) =>
    Except.ok (if object = chainObject 0 then "frame" else "push button")
  | .target (.call (.name _)) => Except.ok ""
  | .target (.call (.getState _)) => Except.ok shownStates
  | .target (.call (.getInterfaces _)) => Except.ok (⟨[.action], 1⟩ : InterfaceSet)
  | .target (.call (.getExtents _)) => Except.ok (⟨0, 0, 0, 0⟩ : Extents)
  | .target (.call (.nActions _)) => Except.ok (1 : Int32)
  | .target (.call (.getName ..)) => Except.ok "click"
  | .target (.call (.characterCount _)) => Except.ok (0 : Int32)
  | .target (.call (.getText ..)) => Except.ok ""
  | .effect _ => Except.ok true

def clickButton : EffectM DispatchReceipt :=
  semantic stateBit chainBus buttonBuild (.invoke buttonTarget 2000)

theorem clickButton_run : ∃ past, Steps clickButton.run past (.ret (.ok receipt)) := by
  have told (op : EffectOp) : (⟨op, buttonAnswer op⟩ : Event EffectBus).ans = buttonAnswer op := rfl
  obtain ⟨past, _, run⟩ := @steps_answered EffectBus _ buttonAnswer
    (fun e => e.ans = buttonAnswer e.op) told clickButton.run
  have result : clickButton.run.answered buttonAnswer = .ok receipt := by decide +kernel
  exact ⟨past, result ▸ run⟩

/-- The click, in its place in the history. -/
theorem clickButton_effect : ∃ before effect dispatched after p,
    Steps clickButton.run (before ++ ⟨.effect effect, dispatched⟩ :: after) p := by
  obtain ⟨past, run⟩ := clickButton_run
  obtain ⟨_, effect, only, _⟩ := upholds_run upholds_semantic rfl run
  have member : (⟨.effect effect, .ok true⟩ : Event EffectBus) ∈ effectWork.taken past := by
    rw [only]
    exact List.mem_cons_self
  obtain ⟨before, after, rfl⟩ := List.append_of_mem (List.mem_filter.mp member).1
  exact ⟨before, effect, _, after, _, run⟩

/-! ### Effects of any dispatch -/

section

variable {bit : State → UInt64} {bus : Bus} {build : Build} {call : SemanticCall}
  {effect : Effect} {dispatched : Except NativeError Bool} {past after : EffectPast}

/-- **The fence**: in every history of a dispatch, an effect is asked for only once, right after
the last check, of the object that was recorded for the target, for the recorded action. Its
providers gave it the recorded fingerprint in this dispatch, in the recorded window, found it
fit, and led from it up to the window once more after that. -/
theorem effect_fenced {p : Prog EffectBus (Except DispatchError DispatchReceipt)}
    (run : Steps (semantic bit bus build call).run (past ++ ⟨.effect effect, dispatched⟩ :: after) p) :
    Fenced bit bus build call past effect :=
  upholds_asks upholds_semantic rfl run effect rfl

theorem effect_fenced_click : ∃ before effect dispatched after p,
    Steps clickButton.run (before ++ ⟨.effect effect, dispatched⟩ :: after) p ∧
      Fenced stateBit chainBus buttonBuild (.invoke buttonTarget 2000) before effect := by
  obtain ⟨before, effect, dispatched, after, p, run⟩ := clickButton_effect
  exact ⟨before, effect, dispatched, after, p, run, effect_fenced run⟩

/-- **What is said of the effect**: an error leaves the effect open if and only if it was asked
for. A dispatch that succeeds has asked for it once, was told that it came about, and was in
time. -/
theorem effect_settled {result : Except DispatchError DispatchReceipt}
    (run : Steps (semantic bit bus build call).run past (.ret result)) :
    (effectWork.taken past).length ≤ 1 ∧
      (∀ error, result = .error error →
        (error.effect = .unknown ↔ effectWork.taken past ≠ [])) ∧
      ∀ told, result = .ok told → told = receipt ∧ ∃ effect, Came (deadlineOf call) effect past := by
  have verdict := upholds_run upholds_semantic rfl run
  cases result with
  | ok told =>
    obtain ⟨same, effect, only, inTime⟩ := verdict
    refine ⟨by simp [only], fun _ other => (nomatch other), ?_⟩
    rintro _ ⟨⟩
    exact ⟨same, effect, only, inTime⟩
  | error error =>
    have both : (effectWork.taken past).length ≤ 1 ∧
        (error.effect = .unknown ↔ effectWork.taken past ≠ []) := by
      rcases verdict with ⟨known, unchanged⟩ | ⟨unknown, e, only⟩
      · simp [unchanged, known]
      · simp [only, unknown]
    refine ⟨both.1, ?_, fun _ other => (nomatch other)⟩
    rintro _ ⟨⟩
    exact both.2

theorem effect_settled_click : ∃ past, Steps clickButton.run past (.ret (.ok receipt)) ∧
    (effectWork.taken past).length ≤ 1 ∧ ∃ effect, Came 2000 effect past := by
  obtain ⟨past, run⟩ := clickButton_run
  have settled := effect_settled run
  exact ⟨past, run, settled.1, (settled.2.2 receipt rfl).2⟩

end

end Praefectus.Atspi
