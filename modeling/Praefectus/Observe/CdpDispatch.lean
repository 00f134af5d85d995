import Praefectus.Observe.CdpFence

/-!
# Dispatches to a page

A dispatch changes the page once at most, behind its fence. Its error says that the page may
have been changed whenever it may, and its success that it was.
-/

namespace Praefectus.Cdp.CdpExecutor

open Prog Json

/-! ### What comes of a dispatch -/

/-- The effect did not come about: the command was not handed over, or not sent, or the function
in the page refused. -/
def Undone : Event LiveBrowser → Prop
  | ⟨.browser (.command _ _ _), ans⟩ => ans = none ∨ ans = some (.error .beforeSend) ∨
    ∃ reply, ans = some (.ok reply) ∧ eligible reply = some false
  | _ => False

/-- What an error says is so: without an effect that was asked for, it claims none; with one, it
leaves it open, or the effect did not come about. -/
def Told (scripts : Scripts) (error : DispatchError) (past : Past) : Prop :=
  effectsOf scripts past = [] ∧ Harmless error ∨
    ∃ e, effectsOf scripts past = [e] ∧ (error.effect = .unknown ∨ Undone e)

/-- What was seen after the effect, in the page or in the reply. -/
def Confirmed (build : Build) (scripts : Scripts) (deadlineAtMs : Int64) (objectId : String)
    (reply : Json) (since : Past) : Action → Prop
  | .setValue value => ∃ response probe,
    Replied callMethod (probeParameters objectId scripts.probe) deadlineAtMs response since ∧
      pointer response ["result", "value"] = some probe ∧ confirms build probe value = true
  | .scroll direction _ => ∃ result before intended after,
    pointer reply ["result", "value"] = some result ∧
      (result.get? "before").bind finite = some before ∧
      (result.get? "intended").bind finite = some intended ∧
      (result.get? "after").bind finite = some after ∧
      scrolled direction before intended after = true
  | _ => True

/-- The page was changed once, said so, and what was seen since confirms it. -/
def Done (build : Build) (scripts : Scripts) (deadlineAtMs : Int64) (action : Action) (past : Past) :
    Prop :=
  ∃ objectId parameters requirements reply earlier since,
    effectParameters scripts objectId action = some (parameters, requirements) ∧
    past = earlier ++
      ⟨.browser (.command callMethod parameters deadlineAtMs), some (.ok reply)⟩ :: since ∧
    effectsOf scripts earlier = [] ∧ effectsOf scripts since = [] ∧
    (reply.get? "exceptionDetails").isSome = false ∧ eligible reply = some true ∧
    Confirmed build scripts deadlineAtMs objectId reply since action

/-! ### The fence -/

/-- The object that is asked for its value is the one that the page gave for the element, which is
not protected, or on which the effect was asked for. -/
def MayReveal (scripts : Scripts) (deadlineAtMs : Int64) (action : Action) (elementId : String)
    (past : Past) (op : LiveOp) : Prop :=
  ∃ stored node objectId, LatestSeen elementId stored node past ∧
    ObjectSeen deadlineAtMs (.fromStored node stored) objectId past ∧
    op = .browser (.command callMethod (probeParameters objectId scripts.probe) deadlineAtMs) ∧
    (node.isProtected = false ∨ ∃ parameters requirements answer,
      effectParameters scripts objectId action = some (parameters, requirements) ∧
      (⟨.browser (.command callMethod parameters deadlineAtMs), answer⟩ : Event LiveBrowser) ∈ past)

def allowed (build : Build) (config : CdpConfig) (scripts : Scripts) (deadlineAtMs : Int64)
    (action : Action) (elementId : String) (past : Past) (op : LiveOp) : Prop :=
  (isEffect scripts op = true →
    Fenced build config scripts deadlineAtMs action elementId past op) ∧
  (reveals scripts op = true → MayReveal scripts deadlineAtMs action elementId past op)

section

variable {build : Build} {config : CdpConfig} {scripts : Scripts} {deadlineAtMs : Int64}
  {action : Action} {elementId : String} {R : Past → Prop} {α : Type}

theorem rules_before : Rules scripts (allowed build config scripts deadlineAtMs action elementId)
    Harmless (Told scripts) where
  free past op plain := by
    constructor
    · intro effect
      rw [plain.1] at effect
      contradiction
    · intro reveals
      rw [plain.2] at reveals
      contradiction
  fails error past unchanged harmless := .inl ⟨unchanged, harmless⟩

/-! ### Kinds of calls -/

/-- What looks at the page does not change it. -/
theorem apart (scripts : Scripts) {text : String}
    (looks : text ∈ [scripts.probe, scripts.protectedProbe, scripts.scrollProbe]) :
    text ∉ [scripts.scrollEffect, scripts.invokeEffect, scripts.setValueEffect] := by
  have distinct : ([scripts.probe, scripts.protectedProbe, scripts.scrollProbe] ++
      [scripts.scrollEffect, scripts.invokeEffect, scripts.setValueEffect]).Nodup := scripts.distinct
  exact List.disjoint_of_nodup_append distinct looks

theorem quiet_call {parameters : Json} {text : String} (declared : declarationOf parameters = some text)
    (looks : text ∈ [scripts.probe, scripts.protectedProbe, scripts.scrollProbe]) :
    Quiet scripts (.browser (.command callMethod parameters deadlineAtMs)) := by
  have other := apart scripts looks
  simpa [Quiet, isEffect, declared] using other

theorem plain_call {parameters : Json} {text : String} (declared : declarationOf parameters = some text)
    (looks : text ∈ [scripts.protectedProbe, scripts.scrollProbe]) :
    Plain scripts (.browser (.command callMethod parameters deadlineAtMs)) := by
  have distinct := scripts.distinct
  have other : text ≠ scripts.probe := by
    rintro rfl
    simp only [List.nodup_cons, List.mem_cons] at distinct looks
    tauto
  refine ⟨quiet_call declared (List.mem_cons_of_mem _ looks), ?_⟩
  simpa [reveals, declared] using other

/-- What changes the page tells nothing of values. -/
theorem allowed_effect {parameters : Json} {text : String} {past : Past}
    (declared : declarationOf parameters = some text)
    (member : text ∈ [scripts.scrollEffect, scripts.invokeEffect, scripts.setValueEffect])
    (fenced : Fenced build config scripts deadlineAtMs action elementId past
      (.browser (.command callMethod parameters deadlineAtMs))) :
    allowed build config scripts deadlineAtMs action elementId past
      (.browser (.command callMethod parameters deadlineAtMs)) := by
  refine ⟨fun _ => fenced, fun revealing => ?_⟩
  have named : text = scripts.probe := by simpa [reveals, declared] using revealing
  exact absurd member (apart scripts (by simp [named]))

theorem effect_call {parameters : Json} {text : String} (declared : declarationOf parameters = some text)
    (member : text ∈ [scripts.scrollEffect, scripts.invokeEffect, scripts.setValueEffect]) :
    isEffect scripts (.browser (.command callMethod parameters deadlineAtMs)) = true := by
  simpa [isEffect, declared] using member

/-! ### Up to the effect -/

theorem calm_unchanged : Calm scripts fun past => effectsOf scripts past = [] where
  lasting past e quiet unchanged := by
    unfold Quiet at quiet
    simp [effectsOf, quiet] at unchanged ⊢
    exact unchanged
  unchanged _ := id

/-- Before the effect, a protected element is not asked for its value. -/
theorem looks_probe (calm : Calm scripts R) (objectId : String) (isProtected : Bool)
    (may : isProtected = false → ∀ past, R past → MayReveal scripts deadlineAtMs action elementId past
      (.browser (.command callMethod (probeParameters objectId scripts.probe) deadlineAtMs))) :
    Upholds (allowed build config scripts deadlineAtMs action elementId) (Told scripts) R (fun _ => R)
      (probeObjectForEffect scripts deadlineAtMs objectId ⟨isProtected, false, false⟩) := by
  have asks : Upholds (allowed build config scripts deadlineAtMs action elementId) (Told scripts) R
      (fun _ => R) (queryForEffect deadlineAtMs callMethod (probeParameters objectId
        (if isProtected then scripts.protectedProbe else scripts.probe))) := by
    cases isProtected with
    | true =>
      have plain : Plain scripts (.browser (.command callMethod
          (probeParameters objectId scripts.protectedProbe) deadlineAtMs)) := plain_call rfl (by simp)
      exact upholds_mono (looks_query rules_before calm plain.1 fun past _ =>
        rules_before.free past _ plain) fun _ _ => And.left
    | false =>
      have quiet : Quiet scripts (.browser (.command callMethod
          (probeParameters objectId scripts.probe) deadlineAtMs)) := quiet_call rfl (by simp)
      refine upholds_mono (looks_query rules_before calm quiet fun past known => ?_) fun _ _ => And.left
      exact ⟨fun effect => absurd (effect.symm.trans quiet) (by decide), fun _ => may rfl past known⟩
  unfold probeObjectForEffect
  simp only [Bool.not_false, Bool.and_true, Bool.false_eq_true, if_false]
  refine upholds_bind asks fun response => ?_
  refine upholds_ite (fun _ => looks_throw rules_before calm (by decide)) fun _ => ?_
  exact upholds_mono (looks_present rules_before calm (by decide) _) fun _ _ => And.left

/-- After the effect, errors leave it open, or it did not come about. -/
theorem rules_after {earlier : Past} {e : Event LiveBrowser}
    (unchanged : effectsOf scripts earlier = []) (effect : isEffect scripts e.op = true) :
    Rules scripts
      (fun since => allowed build config scripts deadlineAtMs action elementId (earlier ++ [e] ++ since))
      (fun error => error.effect = .unknown ∨ Undone e)
      (fun error since => Told scripts error (earlier ++ [e] ++ since)) where
  free since op plain := rules_before.free _ op plain
  fails error since quiet fine := by
    refine .inr ⟨e, ?_, fine⟩
    unfold effectsOf at unchanged quiet ⊢
    simp [unchanged, quiet, effect]

/-- The effect is asked for behind its fence. -/
theorem looks_effect {parameters : Json} {text : String}
    (declared : declarationOf parameters = some text)
    (member : text ∈ [scripts.scrollEffect, scripts.invokeEffect, scripts.setValueEffect])
    (calm : Calm scripts R)
    (fenced : ∀ past, R past → InTime deadlineAtMs past →
      Fenced build config scripts deadlineAtMs action elementId past
        (.browser (.command callMethod parameters deadlineAtMs))) :
    Upholds (allowed build config scripts deadlineAtMs action elementId) (Told scripts) R
      (fun reply past => ∃ earlier, R earlier ∧ past = earlier ++
        [⟨.browser (.command callMethod parameters deadlineAtMs), some (.ok reply)⟩])
      (effectCommand deadlineAtMs callMethod parameters false) := by
  unfold effectCommand
  simp only [Bool.false_eq_true, if_false]
  refine upholds_bind (looks_inTime rules_before calm) fun _ past ⟨known, inTime⟩ => ?_
  have effect : isEffect scripts (.browser (.command callMethod parameters deadlineAtMs)) = true :=
    effect_call declared member
  have unchanged := calm.unchanged past known
  refine judged_bind (judged_ask (allowed_effect declared member (fenced past known inTime)) ?_)
  intro answer
  have asked : effectsOf scripts (past ++
      [⟨.browser (.command callMethod parameters deadlineAtMs), answer⟩]) =
        [⟨.browser (.command callMethod parameters deadlineAtMs), answer⟩] := by
    unfold effectsOf at unchanged ⊢
    simp [unchanged, effect]
  rcases answer with _ | (error | reply)
  · exact judged_bind (judged_throw (.inr ⟨_, asked, .inr (.inl rfl)⟩))
  · cases error with
    | afterSend => exact judged_throw (.inr ⟨_, asked, .inl rfl⟩)
    | beforeSend =>
      -- whatever stops the dispatch now, the command was not sent
      have undone : Undone ⟨.browser (.command callMethod parameters deadlineAtMs),
          some (.error .beforeSend)⟩ := .inr (.inl rfl)
      have after := @rules_after build config scripts deadlineAtMs action elementId past
        ⟨.browser (.command callMethod parameters deadlineAtMs), some (.error .beforeSend)⟩
        unchanged effect
      have rules : Rules scripts _ Harmless _ :=
        ⟨after.free, fun error since quiet _ => after.fails error since quiet (.inr undone)⟩
      have stops : Upholds _ _ (fun since => effectsOf scripts since = []) (fun _ _ => False) (do
          checkEffectBoundary deadlineAtMs
          throw (noEffect "browser effect was not dispatched") : EffectM Json) :=
        upholds_bind (looks_check rules calm_unchanged) fun _ =>
          looks_throw rules calm_unchanged (by decide)
      have stopped := upholds_after _ stops _ ⟨[], (List.append_nil _).symm, rfl⟩
      refine judged_mono stopped ?_ fun _ _ => id
      rintro _ _ ⟨_, _, impossible⟩
      exact impossible.elim
  · exact judged_pure ⟨past, known, rfl⟩

/-! ### After the effect -/

/-- What a success says of the reply and of what was seen since. -/
structure Settled (build : Build) (scripts : Scripts) (deadlineAtMs : Int64) (objectId : String)
    (reply : Json) (action : Action) (since : Past) : Prop where
  unchanged : effectsOf scripts since = []
  regular : (reply.get? "exceptionDetails").isSome = false
  accepted : eligible reply = some true
  confirmed : Confirmed build scripts deadlineAtMs objectId reply since action

section

variable {allows : Past → LiveOp → Prop} {fine : DispatchError → Prop}
  {E : DispatchError → Past → Prop} (rules : Rules scripts allows fine E)
  (open' : ∀ error, error.effect = .unknown → fine error)
include rules open'

theorem looks_afterBoundary (calm : Calm scripts R) :
    Upholds allows E R (fun _ => R) (checkAfterEffectBoundary deadlineAtMs) := by
  unfold checkAfterEffectBoundary
  refine looks_then calm (looks_ask rules calm ⟨rfl, rfl⟩) (fun _ => lasting_mem _)
    fun cancelled calm => ?_
  refine upholds_ite (fun _ => looks_throw rules calm (open' _ rfl)) fun _ => ?_
  refine looks_then calm (looks_ask rules calm ⟨rfl, rfl⟩) (fun _ => lasting_mem _)
    fun nowMs calm => ?_
  refine upholds_ite (fun _ => looks_throw rules calm (open' _ rfl)) fun _ => upholds_pure ?_
  exact fun past known => known.1.1

/-- A command that follows the effect. -/
theorem looks_late (calm : Calm scripts R) {method : String} {parameters : Json}
    (quiet : Quiet scripts (.browser (.command method parameters deadlineAtMs)))
    (may : ∀ past, R past → allows past (.browser (.command method parameters deadlineAtMs))) :
    Upholds allows E R
      (fun reply past => R past ∧ Replied method parameters deadlineAtMs reply past)
      (effectCommand deadlineAtMs method parameters true) := by
  unfold effectCommand
  refine upholds_bind (looks_afterBoundary rules open' calm) fun _ => ?_
  refine looks_then calm (upholds_ask calm.lasting quiet may) (fun _ => lasting_mem _)
    fun answer calm => ?_
  refine looks_then calm (looks_present rules calm (open' _ rfl) answer) (fun _ => lasting_const _)
    fun result calm => ?_
  cases result with
  | error _ => exact looks_throw rules calm (open' _ rfl)
  | ok reply =>
    refine upholds_pure ?_
    rintro past ⟨⟨holds, member⟩, rfl⟩
    exact ⟨holds, member⟩

theorem looks_revealed (calm : Calm scripts R) (objectId : String) (isProtected : Bool)
    (may : ∀ past, R past → allows past
      (.browser (.command callMethod (probeParameters objectId scripts.probe) deadlineAtMs))) :
    Upholds allows E R
      (fun probe past => R past ∧ ∃ response,
        Replied callMethod (probeParameters objectId scripts.probe) deadlineAtMs response past ∧
          pointer response ["result", "value"] = some probe)
      (probeObjectForEffect scripts deadlineAtMs objectId ⟨isProtected, true, true⟩) := by
  unfold probeObjectForEffect
  simp only [Bool.not_true, Bool.and_false, Bool.false_eq_true, if_false, if_true]
  refine looks_then calm (looks_late rules open' calm (quiet_call rfl (by simp)) may)
    (fun _ => lasting_replied _ _ _) fun response calm => ?_
  refine upholds_ite (fun _ => looks_throw rules calm (open' _ rfl)) fun _ => ?_
  refine upholds_mono (looks_present rules calm (open' _ rfl) _) ?_
  rintro probe past ⟨⟨holds, replied⟩, found⟩
  exact ⟨holds, response, replied, found⟩

end

theorem settles_invoke {e : Event LiveBrowser} {objectId : String} {reply : Json}
    {allows : Past → LiveOp → Prop} {E : DispatchError → Past → Prop}
    (rules : Rules scripts allows (fun error => error.effect = .unknown ∨ Undone e) E)
    (refused : eligible reply = some false → Undone e) :
    Upholds allows E (fun since => effectsOf scripts since = [])
      (fun receipt since => receipt = successReceipt ∧
        Settled build scripts deadlineAtMs objectId reply .invoke since)
      (settleInvoke deadlineAtMs reply) := by
  unfold settleInvoke
  refine upholds_bind (looks_afterBoundary rules (fun _ => .inl) calm_unchanged) fun _ => ?_
  refine upholds_ite (fun _ => looks_throw rules calm_unchanged (.inl rfl)) fun regular => ?_
  cases accepted : eligible reply with
  | none => exact looks_throw rules calm_unchanged (.inl rfl)
  | some accepts =>
    cases accepts with
    | false => exact looks_throw rules calm_unchanged (.inr (refused accepted))
    | true =>
      refine upholds_pure fun since unchanged => ⟨rfl, unchanged, ?_, accepted, trivial⟩
      simpa using regular

theorem settles_setValue {e : Event LiveBrowser} {objectId value : String} {reply : Json}
    {target : NodeIdentity} {allows : Past → LiveOp → Prop} {E : DispatchError → Past → Prop}
    (rules : Rules scripts allows (fun error => error.effect = .unknown ∨ Undone e) E)
    (refused : eligible reply = some false → Undone e)
    (may : ∀ past, allows past
      (.browser (.command callMethod (probeParameters objectId scripts.probe) deadlineAtMs))) :
    Upholds allows E (fun since => effectsOf scripts since = [])
      (fun receipt since => receipt = successReceipt ∧
        Settled build scripts deadlineAtMs objectId reply (.setValue value) since)
      (settleSetValue build scripts deadlineAtMs target objectId value reply) := by
  have open' : ∀ error : DispatchError, error.effect = .unknown →
      error.effect = .unknown ∨ Undone e := fun _ => .inl
  unfold settleSetValue
  refine upholds_bind (looks_afterBoundary rules open' calm_unchanged) fun _ => ?_
  refine upholds_ite (fun _ => looks_throw rules calm_unchanged (.inl rfl)) fun regular => ?_
  cases accepted : eligible reply with
  | none => exact looks_throw rules calm_unchanged (.inl rfl)
  | some accepts =>
    cases accepts with
    | false => exact looks_throw rules calm_unchanged (.inr (refused accepted))
    | true =>
      have lasting : Lasting (Plain scripts) fun since => effectsOf scripts since = [] :=
        lasting_mono calm_unchanged.lasting fun _ => And.left
      refine upholds_bind (upholds_mono (upholds_ran lasting (plain_onBrowser plain_verifyProcess)
        fun past op _ => rules.free past op) fun _ _ => And.left) fun verified => ?_
      refine upholds_bind (upholds_mono (looks_told rules calm_unchanged (.inl rfl) verified)
        fun _ _ => And.left) fun _ => ?_
      refine upholds_bind (looks_revealed rules open' calm_unchanged objectId target.isProtected
        fun past _ => may past) fun probe => ?_
      refine upholds_ite (fun confirmed => upholds_pure ?_) fun _ => upholds_throw ?_
      · rintro since ⟨unchanged, response, replied, found⟩
        have regular : (reply.get? "exceptionDetails").isSome = false := by simpa using regular
        exact ⟨rfl, unchanged, regular, accepted, response, probe, replied, found, confirmed⟩
      · exact fun since known => rules.fails _ since known.1 (.inl rfl)

theorem pointer_append (value : Json) (path path' : List String) :
    pointer value (path ++ path') = (pointer value path).bind fun value => pointer value path' :=
  List.foldlM_append

theorem pointer_single (value : Json) (key : String) : pointer value [key] = value.get? key := by
  simp [pointer]

theorem settles_scroll {e : Event LiveBrowser} {objectId : String} {reply : Json}
    {direction : Direction} {allows : Past → LiveOp → Prop} {E : DispatchError → Past → Prop}
    (rules : Rules scripts allows (fun error => error.effect = .unknown ∨ Undone e) E)
    (refused : eligible reply = some false → Undone e) :
    Upholds allows E (fun since => effectsOf scripts since = [])
      (fun receipt since => receipt = successReceipt ∧
        Settled build scripts deadlineAtMs objectId reply (.scroll direction 1) since)
      (settleScroll deadlineAtMs direction reply) := by
  unfold settleScroll
  refine upholds_bind (looks_afterBoundary rules (fun _ => .inl) calm_unchanged) fun _ => ?_
  refine upholds_ite (fun _ => looks_throw rules calm_unchanged (.inl rfl)) fun regular => ?_
  refine looks_then calm_unchanged (looks_present rules calm_unchanged (.inl rfl) _)
    (fun _ => lasting_const _) fun result calm => ?_
  refine upholds_given fun found => ?_
  have whole : eligible reply = (result.get? "eligible").bind asBool := by
    have longer := pointer_append reply ["result", "value"] ["eligible"]
    rw [found] at longer
    exact congrArg (Option.bind · asBool) (longer.trans (pointer_single _ _))
  cases accepted : (result.get? "eligible").bind asBool with
  | none => exact looks_throw rules calm_unchanged (.inl rfl)
  | some accepts =>
    cases accepts with
    | false => exact looks_throw rules calm_unchanged (.inr (refused (whole.trans accepted)))
    | true =>
      have calm := @calm_unchanged scripts
      refine looks_then calm (looks_present rules calm (.inl rfl) _) (fun _ => lasting_const _)
        fun before calm => ?_
      refine looks_then calm (looks_present rules calm (.inl rfl) _) (fun _ => lasting_const _)
        fun intended calm => ?_
      refine looks_then calm (looks_present rules calm (.inl rfl) _) (fun _ => lasting_const _)
        fun after calm => ?_
      refine upholds_ite (fun moved => upholds_pure ?_) fun _ => looks_throw rules calm (.inl rfl)
      rintro since ⟨⟨⟨unchanged, read⟩, read'⟩, read''⟩
      have regular : (reply.get? "exceptionDetails").isSome = false := by simpa using regular
      exact ⟨rfl, unchanged, regular, whole.trans accepted, result, before, intended, after, found,
        read, read', read'', moved⟩

/-! ### The routines -/

/-- The effect, and what came of it. -/
theorem dispatches_effect {objectId text : String} {parameters : Json}
    {requirements : LiveTargetRequirements} {settle : Json → EffectM DispatchReceipt}
    (declared : declarationOf parameters = some text)
    (member : text ∈ [scripts.scrollEffect, scripts.invokeEffect, scripts.setValueEffect])
    (told : effectParameters scripts objectId action = some (parameters, requirements))
    (calm : Calm scripts R)
    (fenced : ∀ past, R past → InTime deadlineAtMs past →
      Fenced build config scripts deadlineAtMs action elementId past
        (.browser (.command callMethod parameters deadlineAtMs)))
    (held : ∀ past, R past → ∃ stored node, LatestSeen elementId stored node past ∧
      ObjectSeen deadlineAtMs (.fromStored node stored) objectId past)
    (settles : ∀ reply allows E, Rules scripts allows (fun error => error.effect = .unknown ∨
          Undone ⟨.browser (.command callMethod parameters deadlineAtMs), some (.ok reply)⟩) E →
      (∀ past, allows past
        (.browser (.command callMethod (probeParameters objectId scripts.probe) deadlineAtMs))) →
      Upholds allows E (fun since => effectsOf scripts since = [])
        (fun receipt since => receipt = successReceipt ∧
          Settled build scripts deadlineAtMs objectId reply action since) (settle reply)) :
    Upholds (allowed build config scripts deadlineAtMs action elementId) (Told scripts) R
      (fun receipt past => receipt = successReceipt ∧ Done build scripts deadlineAtMs action past)
      (effectCommand deadlineAtMs callMethod parameters false >>= settle) := by
  refine upholds_bind (looks_effect declared member calm fenced) fun reply => ?_
  rintro _ ⟨earlier, known, rfl⟩
  have unchanged := calm.unchanged earlier known
  have effect : isEffect scripts (.browser (.command callMethod parameters deadlineAtMs)) = true :=
    effect_call declared member
  have rules := @rules_after build config scripts deadlineAtMs action elementId earlier
    ⟨.browser (.command callMethod parameters deadlineAtMs), some (.ok reply)⟩ unchanged effect
  have settled := upholds_after _ (settles reply _ _ rules fun since => ?_) _
    ⟨[], (List.append_nil _).symm, by simp [effectsOf]⟩
  · refine judged_mono settled ?_ fun _ _ => id
    rintro receipt _ ⟨since, rfl, success, settled⟩
    refine ⟨success, objectId, parameters, requirements, reply, earlier, since, told, by simp,
      unchanged, settled.unchanged, settled.regular, settled.accepted, settled.confirmed⟩
  · -- the value may be asked for once the effect was, of the same object
    have quiet : Quiet scripts (.browser (.command callMethod
      (probeParameters objectId scripts.probe) deadlineAtMs)) := quiet_call rfl (by simp)
    refine ⟨fun changing => absurd (changing.symm.trans quiet) (by decide), fun _ => ?_⟩
    obtain ⟨stored, node, latest, object⟩ := held earlier known
    rw [List.append_assoc]
    refine ⟨stored, node, objectId, lasting_append (lasting_latestSeen _ _ _) latest _,
      lasting_append (lasting_objectSeen _ _) object _, rfl, .inr ?_⟩
    refine ⟨parameters, requirements, some (.ok reply), told, ?_⟩
    exact List.mem_append_right _ List.mem_cons_self

section

variable {stored : StoredObservation} {node : CdpNode}

/-- What is known when the routine of an action begins. -/
def Begun (build : Build) (config : CdpConfig) (scripts : Scripts) (deadlineAtMs : Int64)
    (elementId : String) (stored : StoredObservation) (node : CdpNode) (past : Past) : Prop :=
  (effectsOf scripts past = [] ∧ LatestSeen elementId stored node past) ∧
    DocumentSeen build config deadlineAtMs (stored.observation.provenance.documentId.getD "") past

theorem calm_begun : Calm scripts (Begun build config scripts deadlineAtMs elementId stored node) :=
  calm_and (calm_and calm_unchanged (lasting_latestSeen _ _ _)) (lasting_documentSeen _)

theorem mayReveal_begun {objectId : String}
    (open' : (NodeIdentity.fromStored node stored).isProtected = false) (past : Past)
    (begun : Begun build config scripts deadlineAtMs elementId stored node past)
    (object : ObjectSeen deadlineAtMs (.fromStored node stored) objectId past) :
    MayReveal scripts deadlineAtMs action elementId past
      (.browser (.command callMethod (probeParameters objectId scripts.probe) deadlineAtMs)) :=
  ⟨stored, node, objectId, begun.1.2, object, rfl, .inl open'⟩

theorem dispatches_invoke (fit : isFit node.element.actionability .invoke = true) :
    Upholds (allowed build config scripts deadlineAtMs .invoke elementId) (Told scripts)
      (Begun build config scripts deadlineAtMs elementId stored node)
      (fun receipt past => receipt = successReceipt ∧ Done build scripts deadlineAtMs .invoke past)
      (dispatchInvoke build config scripts deadlineAtMs (.fromStored node stored)) := by
  have rules := @rules_before build config scripts deadlineAtMs .invoke elementId
  have calm := @calm_begun build config scripts deadlineAtMs elementId stored node
  unfold dispatchInvoke
  refine upholds_bind (looks_check rules calm) fun _ => ?_
  refine upholds_bind (upholds_mono (looks_process rules calm) fun _ _ => And.left) fun _ => ?_
  refine looks_then calm (looks_object rules calm (.fromStored node stored))
    (lasting_objectSeen _) fun objectId calm => ?_
  refine upholds_bind (looks_probe calm objectId _ fun open' past known =>
    mayReveal_begun open' past known.1 known.2) fun probe => ?_
  refine upholds_ite (fun _ => looks_throw rules calm (by decide)) fun _ => ?_
  refine upholds_bind (looks_check rules calm) fun _ => ?_
  refine upholds_bind (upholds_mono (looks_process rules calm) fun _ _ => And.left) fun _ => ?_
  refine looks_then calm (looks_node rules calm (.fromStored node stored) ⟨true, false⟩)
    (fun _ => lasting_and (lasting_viewportSeen _) (lasting_nodeSeen _ _)) fun _ calm => ?_
  refine upholds_bind (looks_check rules calm) fun _ => ?_
  refine looks_then calm (looks_process rules calm) (fun _ => lasting_processSeen) fun _ calm => ?_
  refine dispatches_effect rfl (by simp) rfl calm ?_ (fun past known => ⟨stored, node,
    known.1.1.1.1.2, known.1.1.2⟩) fun reply allows E after _ =>
      settles_invoke after fun refused => .inr (.inr ⟨reply, rfl, refused⟩)
  rintro past ⟨⟨⟨⟨⟨unchanged, latest⟩, document⟩, object⟩, viewport, seen⟩, process⟩ inTime
  exact ⟨unchanged, inTime, process, stored, node, latest, fit, objectId, _, _, rfl, rfl, object,
    document, viewport, seen⟩

theorem dispatches_setValue {value : String}
    (fit : isFit node.element.actionability (.setValue value) = true) :
    Upholds (allowed build config scripts deadlineAtMs (.setValue value) elementId) (Told scripts)
      (Begun build config scripts deadlineAtMs elementId stored node)
      (fun receipt past => receipt = successReceipt ∧
        Done build scripts deadlineAtMs (.setValue value) past)
      (dispatchSetValue build config scripts deadlineAtMs (.fromStored node stored) value) := by
  have rules := @rules_before build config scripts deadlineAtMs (.setValue value) elementId
  have calm := @calm_begun build config scripts deadlineAtMs elementId stored node
  unfold dispatchSetValue
  refine upholds_bind (looks_check rules calm) fun _ => ?_
  refine upholds_ite (fun _ => looks_throw rules calm (by decide)) fun _ => ?_
  refine upholds_bind (upholds_mono (looks_process rules calm) fun _ _ => And.left) fun _ => ?_
  refine looks_then calm (looks_object rules calm (.fromStored node stored))
    (lasting_objectSeen _) fun objectId calm => ?_
  refine upholds_bind (looks_probe calm objectId _ fun open' past known =>
    mayReveal_begun open' past known.1 known.2) fun probe => ?_
  refine upholds_ite (fun _ => looks_throw rules calm (by decide)) fun _ => ?_
  refine looks_then calm (looks_node rules calm (.fromStored node stored) ⟨false, true⟩)
    (fun _ => lasting_and (lasting_viewportSeen _) (lasting_nodeSeen _ _)) fun _ calm => ?_
  refine upholds_bind (looks_check rules calm) fun _ => ?_
  refine looks_then calm (looks_process rules calm) (fun _ => lasting_processSeen) fun _ calm => ?_
  refine dispatches_effect rfl (by simp) rfl calm ?_ (fun past known => ⟨stored, node,
    known.1.1.1.1.2, known.1.1.2⟩) fun reply allows E after may =>
      settles_setValue after (fun refused => .inr (.inr ⟨reply, rfl, refused⟩)) may
  rintro past ⟨⟨⟨⟨⟨unchanged, latest⟩, document⟩, object⟩, viewport, seen⟩, process⟩ inTime
  exact ⟨unchanged, inTime, process, stored, node, latest, fit, objectId, _, _, rfl, rfl, object,
    document, viewport, seen⟩

/-- Waiting asks for the token and the clocks only. -/
theorem looks_wait {R : Past → Prop} (calm : Calm scripts R) (started rounds : Nat) :
    Upholds (allowed build config scripts deadlineAtMs action elementId) (Told scripts) R (fun _ => R)
      (waitFrom deadlineAtMs started rounds) := by
  have rules := @rules_before build config scripts deadlineAtMs action elementId
  have quietly {op : LiveOp} (plain : Plain scripts op) :
      Upholds (allowed build config scripts deadlineAtMs action elementId) (Told scripts) R
        (fun _ => R) (live op) :=
    upholds_mono (looks_ask rules calm plain) fun _ _ => And.left
  induction rounds with
  | zero => exact upholds_bind (quietly ⟨rfl, rfl⟩) fun _ => looks_throw rules calm (by decide)
  | succ rounds ih =>
    refine upholds_bind (looks_check rules calm) fun _ => ?_
    refine upholds_bind (quietly ⟨rfl, rfl⟩) fun now => ?_
    refine upholds_ite (fun _ => upholds_pure fun _ => id) fun _ => ?_
    refine upholds_bind (quietly ⟨rfl, rfl⟩) fun nowMs => ?_
    cases remainingOf deadlineAtMs nowMs with
    | none => exact looks_check rules calm
    | some left => exact upholds_bind (quietly ⟨rfl, rfl⟩) fun _ => ih

/-- An error, if it comes to one, leaves nothing open. -/
def Gentle {α : Type} (answer : Except DispatchError α) : Prop :=
  ∀ error, answer = .error error → Harmless error

theorem gentle_throw {α : Type} {error : DispatchError} (known : Harmless error) :
    Gentle (throw error : Except DispatchError α) := by
  rintro _ ⟨⟩
  exact known

theorem gentle_bind {α β : Type} {x : Except DispatchError α} {f : α → Except DispatchError β}
    (first : Gentle x) (rest : ∀ a, Gentle (f a)) : Gentle (x >>= f) := by
  cases x with
  | error error =>
    intro e failed
    obtain rfl := Except.error.inj failed
    exact first _ rfl
  | ok a => exact rest a

theorem gentle_elim {α : Type} {error : DispatchError} (known : Harmless error) (value : Option α) :
    Gentle (value.elim (throw error) pure) := by
  cases value with
  | none => exact gentle_throw known
  | some a => exact fun _ failed => nomatch failed

theorem gentle_viewportPoint (quad : Quad) (layout : Json) : Gentle (viewportPoint quad layout) := by
  unfold viewportPoint
  refine gentle_bind (gentle_elim (by decide) _) fun viewport => ?_
  refine gentle_bind (gentle_elim (by decide) _) fun width => ?_
  refine gentle_bind (gentle_elim (by decide) _) fun height => ?_
  dsimp only
  split
  · exact gentle_throw (by decide)
  · split
    · exact gentle_throw (by decide)
    · exact fun _ failed => nomatch failed

theorem looks_answer {R : Past → Prop} {α : Type} {allows : Past → LiveOp → Prop}
    {E : DispatchError → Past → Prop} (rules : Rules scripts allows Harmless E)
    (calm : Calm scripts R) {answer : Except DispatchError α}
    (known : Gentle answer) : Upholds allows E R (fun _ => R) (ExceptT.mk (.ret answer)) := by
  cases answer with
  | error error => exact looks_throw rules calm (known error rfl)
  | ok a => exact upholds_pure fun _ => id

theorem dispatches_scroll {rounds : Nat} {direction : Direction}
    (fit : isFit node.element.actionability (.scroll direction 1) = true) :
    Upholds (allowed build config scripts deadlineAtMs (.scroll direction 1) elementId) (Told scripts)
      (Begun build config scripts deadlineAtMs elementId stored node)
      (fun receipt past => receipt = successReceipt ∧
        Done build scripts deadlineAtMs (.scroll direction 1) past)
      (dispatchScroll build config scripts deadlineAtMs rounds (.fromStored node stored) direction) := by
  have rules := @rules_before build config scripts deadlineAtMs (.scroll direction 1) elementId
  have calm := @calm_begun build config scripts deadlineAtMs elementId stored node
  unfold dispatchScroll
  refine upholds_bind (looks_check rules calm) fun _ => ?_
  refine upholds_bind (upholds_mono (looks_process rules calm) fun _ _ => And.left) fun _ => ?_
  refine looks_then calm (looks_object rules calm (.fromStored node stored))
    (lasting_objectSeen _) fun objectId calm => ?_
  have asks {method : String} (other : method ≠ callMethod) (parameters : Json) :
      Upholds _ _ _ (fun _ => _) (queryForEffect deadlineAtMs method parameters) :=
    upholds_mono (looks_command rules calm other parameters) fun _ _ => And.left
  have probes := upholds_mono (looks_query rules calm (plain_call rfl (by simp)).1
    fun past _ => rules.free past (.browser (.command callMethod
      (scrollProbeParameters scripts objectId) deadlineAtMs)) (plain_call rfl (by simp)))
    fun _ _ => And.left
  have finds {α : Type} {error : DispatchError} (known : Harmless error) (value : Option α) :=
    upholds_mono (looks_present rules calm known value) fun _ _ => And.left
  refine upholds_bind probes fun probe => upholds_bind (finds (by decide) _) fun value => ?_
  refine upholds_ite (fun _ => looks_throw rules calm (by decide)) fun _ => ?_
  -- the box is measured twice
  refine upholds_bind (asks (by decide) _) fun firstBox => ?_
  refine upholds_bind (upholds_bind (upholds_mono (looks_ask rules calm ⟨rfl, rfl⟩) fun _ _ => And.left)
    fun started => looks_wait calm started rounds) fun _ => ?_
  refine upholds_bind (asks (by decide) _) fun secondBox => ?_
  refine upholds_bind (finds (by decide) _) fun firstQuad => ?_
  refine upholds_bind (finds (by decide) _) fun secondQuad => ?_
  refine upholds_ite (fun _ => looks_throw rules calm (by decide)) fun _ => ?_
  refine upholds_bind (asks (by decide) _) fun layout => ?_
  refine upholds_bind (looks_answer rules calm (gentle_viewportPoint secondQuad layout)) fun point => ?_
  refine upholds_bind (asks (by decide) _) fun hit => ?_
  refine upholds_ite (fun _ => looks_throw rules calm (by decide)) fun _ => ?_
  refine upholds_bind (looks_check rules calm) fun _ => ?_
  refine upholds_bind (upholds_mono (looks_process rules calm) fun _ _ => And.left) fun _ => ?_
  refine looks_then calm (looks_node rules calm (.fromStored node stored) ⟨false, false⟩)
    (fun _ => lasting_and (lasting_viewportSeen _) (lasting_nodeSeen _ _)) fun _ calm => ?_
  refine upholds_bind (upholds_mono (looks_query rules calm (plain_call rfl (by simp)).1
    fun past _ => rules.free past (.browser (.command callMethod
      (scrollProbeParameters scripts objectId) deadlineAtMs)) (plain_call rfl (by simp)))
    fun _ _ => And.left) fun probe => ?_
  refine upholds_ite (fun _ => looks_throw rules calm (by decide)) fun _ => ?_
  refine upholds_bind (looks_check rules calm) fun _ => ?_
  refine looks_then calm (looks_process rules calm) (fun _ => lasting_processSeen) fun _ calm => ?_
  refine dispatches_effect rfl ?_ rfl calm ?_ (fun past known => ⟨stored, node,
    known.1.1.1.1.2, known.1.1.2⟩) fun reply allows E after _ =>
      settles_scroll after fun refused => .inr (.inr ⟨reply, rfl, refused⟩)
  · simp
  · rintro past ⟨⟨⟨⟨⟨unchanged, latest⟩, document⟩, object⟩, viewport, seen⟩, process⟩ inTime
    exact ⟨unchanged, inTime, process, stored, node, latest, fit, objectId, _, _, rfl, rfl, object,
      document, viewport, seen⟩

end

/-- Whatever is asked in a dispatch is allowed, and what it comes to is so. -/
theorem dispatches (rounds : Nat) (action : Action) (element : NativeElement)
    (verification : VerificationPolicy) :
    Upholds (allowed build config scripts deadlineAtMs action element.id) (Told scripts)
      (fun past => past = [])
      (fun receipt past => receipt = successReceipt ∧ Done build scripts deadlineAtMs action past)
      (dispatch build config scripts deadlineAtMs rounds action (.element element) verification) := by
  have rules := @rules_before build config scripts deadlineAtMs action element.id
  refine upholds_of (fun past => effectsOf scripts past = []) ?_ ?_
  · rintro _ rfl
    rfl
  have calm := @calm_unchanged scripts
  unfold dispatch
  refine upholds_bind (looks_check rules calm) fun _ => ?_
  refine upholds_ite (fun _ => looks_throw rules calm (by decide)) fun _ => ?_
  refine upholds_ite (fun _ => looks_throw rules calm (by decide)) fun _ => ?_
  refine looks_then calm (looks_ask rules calm ⟨rfl, rfl⟩) (fun _ => lasting_mem _)
    fun answer calm => ?_
  refine looks_then calm (looks_present rules calm (by decide) answer) (fun _ => lasting_const _)
    fun latest calm => ?_
  refine looks_then calm (looks_present rules calm (by decide) latest) (fun _ => lasting_const _)
    fun stored calm => ?_
  refine looks_then calm (looks_present rules calm (by decide) _) (fun _ => lasting_const _)
    fun node calm => ?_
  refine upholds_bind (looks_document rules calm) fun documentId => ?_
  refine upholds_of (fun past => (effectsOf scripts past = [] ∧
    LatestSeen element.id stored node past) ∧ DocumentSeen build config deadlineAtMs documentId past)
    ?_ ?_
  · rintro past ⟨⟨⟨⟨⟨unchanged, asked⟩, rfl⟩, rfl⟩, found⟩, document⟩
    exact ⟨⟨unchanged, asked, found⟩, document⟩
  have calm : Calm scripts fun past => (effectsOf scripts past = [] ∧
      LatestSeen element.id stored node past) ∧
      DocumentSeen build config deadlineAtMs documentId past :=
    calm_and (calm_and calm_unchanged (lasting_latestSeen _ _ _)) (lasting_documentSeen _)
  refine upholds_ite (fun _ => looks_throw rules calm (by decide)) fun same => ?_
  obtain rfl := not_not.mp same
  refine upholds_bind (looks_check rules calm) fun _ => ?_
  refine upholds_ite (fun _ => looks_throw rules calm (by decide)) fun hidden => ?_
  have seen : node.element.actionability.visible = true ∧ node.element.actionability.enabled = true := by
    simpa using hidden
  unfold dispatchTo
  cases action with
  | invoke =>
    refine upholds_ite (fun invokable => ?_) fun _ => looks_throw rules calm (by decide)
    exact dispatches_invoke (by simp [isFit, seen, invokable])
  | setValue value =>
    refine upholds_ite (fun editable => ?_) fun _ => looks_throw rules calm (by decide)
    exact dispatches_setValue (by simp [isFit, seen, editable])
  | scroll direction amount =>
    refine upholds_ite (fun single => ?_) fun _ => looks_throw rules calm (by decide)
    subst single
    exact dispatches_scroll (by simp [isFit, seen])
  | _ => exact looks_throw rules calm (by decide)

/-- A target that is no element is turned away. -/
theorem turns_away {rounds : Nat} {action : Action} {target : ResolvedTarget}
    {verification : VerificationPolicy} (other : ∀ element, target ≠ .element element) :
    Upholds (fun _ => Plain scripts) (Told scripts) (fun past => past = []) (fun _ _ => False)
      (dispatch build config scripts deadlineAtMs rounds action target verification) := by
  have rules : Rules scripts (fun _ => Plain scripts) Harmless (Told scripts) :=
    ⟨fun _ _ => id, fun _ _ unchanged harmless => .inl ⟨unchanged, harmless⟩⟩
  have calm := @calm_unchanged scripts
  apply upholds_of (fun past => effectsOf scripts past = [])
  · rintro _ rfl
    rfl
  unfold dispatch
  refine upholds_bind (looks_check rules calm) fun _ => ?_
  cases target with
  | element element => exact absurd rfl (other element)
  | _ => exact looks_throw rules calm (by decide)

end

/-! ### Every dispatch -/

section

variable {build : Build} {config : CdpConfig} {scripts : Scripts} {deadlineAtMs : Int64}
  {rounds : Nat} {action : Action} {target : ResolvedTarget} {verification : VerificationPolicy}
  {past before after : Past} {e : Event LiveBrowser}

/-- What a dispatch asks of an element, it may ask. -/
theorem dispatch_asks {p : Prog LiveBrowser (Except DispatchError DispatchReceipt)}
    (run : Steps (dispatch build config scripts deadlineAtMs rounds action target verification).run
      (before ++ e :: after) p) (special : ¬ Plain scripts e.op) :
    ∃ element, target = .element element ∧
      allowed build config scripts deadlineAtMs action element.id before e.op := by
  by_cases elemental : ∃ element, target = .element element
  · obtain ⟨element, rfl⟩ := elemental
    exact ⟨element, rfl, upholds_asks (dispatches rounds action element verification) rfl run⟩
  · have other : ∀ element, target ≠ .element element := not_exists.mp elemental
    exact absurd (upholds_asks (turns_away other) rfl run) special

/-- What a dispatch comes to is so. -/
theorem dispatch_ends {result : Except DispatchError DispatchReceipt}
    (run : Steps (dispatch build config scripts deadlineAtMs rounds action target verification).run
      past (.ret result)) :
    Verdict (fun receipt past => receipt = successReceipt ∧
      Done build scripts deadlineAtMs action past) (Told scripts) result past := by
  by_cases elemental : ∃ element, target = .element element
  · obtain ⟨element, rfl⟩ := elemental
    exact upholds_run (dispatches rounds action element verification) rfl run
  · have other : ∀ element, target ≠ .element element := not_exists.mp elemental
    have verdict := upholds_run (turns_away other) rfl run
    cases result with
    | ok receipt => exact verdict.elim
    | error error => exact verdict

end

end Praefectus.Cdp.CdpExecutor
