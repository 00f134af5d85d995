import Praefectus.Engine.Bench
import Praefectus.Native.Executor
import Praefectus.Program.Verdicts

/-!
# Fences of a dispatch

An accepted request does its effect behind a fence: at the coordinates that its target was
resolved to, on the element that its target was found to be, or at the focus once that was found
to be its target. Only the desktop actions, which have no target, are without one. On the way the
dispatch comes to none of the branches it takes for impossible.
-/

namespace Prog

variable {I : Interface} {α β ε Φ : Type} {P : I.Op → Prop}

theorem only_when {c : Prop} [Decidable c] {x : ExceptT ε (Prog I) PUnit} (body : x.run.Only P) :
    (when c x).run.Only P := by
  by_cases holds : c
  · simpa only [when, holds, if_true] using body
  · simp only [when, holds, if_false]
    trivial

theorem only_foldlM {f : β → α → ExceptT ε (Prog I) β} (each : ∀ b item, (f b item).run.Only P)
    (items : List α) (b : β) : (items.foldlM f b).run.Only P := by
  induction items generalizing b with
  | nil => trivial
  | cons item items ih =>
    rw [List.foldlM_cons]
    exact only_try (each b item) fun b => ih b

end Prog

namespace Praefectus

open Prog

/-! ### Questions of the checks -/

section

variable {I : Interface} {P : I.Op → Prop} {boundary : Boundary I} {deadlineAtMs : Int64}

theorem only_orError {ε α : Type} (error : DispatchError) (answer : Except ε α) :
    (orError error answer : DispatchM I α).run.Only P := by
  cases answer <;> trivial

variable (cancelled : boundary.isCancelled.Only P) (clock : boundary.nowMs.Only P)
include cancelled clock

theorem only_isInterrupted : (isInterrupted boundary deadlineAtMs).run.Only P := by
  refine only_try (only_lift cancelled) fun stop => ?_
  cases stop with
  | true => trivial
  | false => exact only_try (only_lift clock) fun _ => trivial

theorem only_checkBeforeEffect : (checkBeforeEffect boundary deadlineAtMs).run.Only P := by
  refine only_try (only_lift cancelled) fun stop => ?_
  cases stop with
  | true => trivial
  | false =>
    refine only_try (only_lift clock) fun nowMs => ?_
    by_cases late : nowMs ≥ deadlineAtMs
    · simp only [late, if_true]
      trivial
    · simp only [late, if_false]
      trivial

theorem only_checkAfterEffect : (checkAfterEffect boundary deadlineAtMs).run.Only P := by
  refine only_try (only_isInterrupted cancelled clock) fun stop => ?_
  cases stop <;> trivial

theorem only_checkPartialDispatch (index : Nat) (message : String) :
    (checkPartialDispatch boundary deadlineAtMs index message).run.Only P := by
  unfold checkPartialDispatch
  split
  · exact only_checkBeforeEffect cancelled clock
  · refine only_try (only_isInterrupted cancelled clock) fun stop => ?_
    cases stop <;> trivial

theorem only_checkTyping (effectStarted : Bool) :
    (checkTyping boundary deadlineAtMs effectStarted).run.Only P := by
  refine only_try (only_isInterrupted cancelled clock) fun stop => ?_
  cases stop with
  | false => trivial
  | true =>
    cases effectStarted with
    | true => trivial
    | false =>
      refine only_try (only_lift cancelled) fun stop => ?_
      cases stop <;> trivial

variable {typeText : String → Bool → Bool → Option UInt64 → Prog I (Except NativeError Unit)}
  (types : ∀ text clear pressReturn delayMs, (typeText text clear pressReturn delayMs).Only P)
include types

omit cancelled clock in
theorem only_sendText (text : String) (clear pressReturn : Bool) (delayMs : Option UInt64) :
    (sendText typeText text clear pressReturn delayMs).run.Only P :=
  only_try (only_lift (types text clear pressReturn delayMs)) fun _ => only_orError _ _

theorem only_typeCharacter (delayMs : Option UInt64) (chunk : String × Bool) (character : Char) :
    (typeCharacter boundary deadlineAtMs typeText delayMs chunk character).run.Only P := by
  refine only_try (only_checkTyping cancelled clock chunk.2) fun _ => ?_
  dsimp only
  split
  · exact only_try (only_sendText types _ _ _ _) fun _ => trivial
  · trivial

theorem only_dispatchTypeText (text : String) (clear pressReturn : Bool)
    (delayMs : Option UInt64) :
    (dispatchTypeText boundary deadlineAtMs typeText text clear pressReturn delayMs).run.Only P := by
  unfold dispatchTypeText
  split
  · trivial
  refine only_try (only_when (only_sendText types _ _ _ _)) fun _ => ?_
  refine only_try (only_foldlM (only_typeCharacter cancelled clock types delayMs) _ _) fun typed => ?_
  refine only_try (only_when (only_sendText types _ _ _ _)) fun _ => ?_
  refine only_try (only_checkTyping cancelled clock _) fun _ => ?_
  exact only_when (only_sendText types _ _ _ _)

end

namespace Native

/-! ### Fences -/

abbrev Past := List (Event Desktop)

/-- The element was found for the target. -/
def Found (ref : SemanticTargetRef) (element : AxElement) (native : NativeElement) (past : Past) :
    Prop :=
  ∃ deadlineAtMs actionability, (⟨.resolveRecordedElement ref deadlineAtMs,
    .ok (element, native, actionability)⟩ : Event Desktop) ∈ past

/-- The target was found to have the focus, by the platform or in the state of its element. -/
def SeenFocused (ref : SemanticTargetRef) (past : Past) : Prop :=
  (∃ deadlineAtMs, (⟨.focusedTarget deadlineAtMs, .ok ref⟩ : Event Desktop) ∈ past) ∨
    ∃ element native, Found ref element native past ∧ isFocused native = true

def IsAt (point : NativePoint) : TargetRef → Prop
  | .coordinates x y _ _ _ _ => point = ⟨x, y⟩
  | _ => False

/-- The fence of an effect. A value is set on its target, never on an element by itself. -/
def Fenced (action : Action) (target : TargetRef) (past : Past) : DesktopOp → Prop
  | .input (.click point _) | .input (.moveCursor point) => IsAt point target
  | .input _ => ∃ ref, target = .element ref ∧ SeenFocused ref past
  | .deed (.drag origin destination _ _) =>
    IsAt origin target ∧ ∃ ref button, action = .drag ref button ∧ IsAt destination ref
  | .deed (.elementSetValue ..) => False
  | .deed (.macSemanticScroll element _ _ _) | .deed (.macSemanticInvoke element _)
  | .deed (.macSemanticSetValue element _ _) | .deed (.macSemanticSelectText element _ _ _)
  | .deed (.macSemanticPerformSecondaryAction element _ _) =>
    ∃ ref native, target = .element ref ∧ Found ref element native past
  | .semantic call => target = .element call.target
  | .status _ | .copy _ => target = .none ∧ action.isAuxiliary = true
  | _ => True

def isPointer : Action → Bool
  | .click .. | .move | .drag .. => true
  | _ => false

def fence (action : Action) (target : TargetRef) : Monitor Desktop Past :=
  ⟨fun past e => past ++ [e], Fenced action target⟩

theorem after_fence (action : Action) (target : TargetRef) (past trace : Past) :
    (fence action target).after past trace = past ++ trace := by
  induction trace generalizing past with
  | nil => exact (List.append_nil past).symm
  | cons e trace ih =>
    have rest := ih (past ++ [e])
    rw [List.append_assoc, List.singleton_append] at rest
    exact rest

/-- What stays true as more happens. -/
def Stable (R : Past → Prop) : Prop := ∀ past e, R past → R (past ++ [e])

theorem stable_found (ref : SemanticTargetRef) (element : AxElement) (native : NativeElement) :
    Stable (Found ref element native) := by
  rintro past e ⟨deadlineAtMs, actionability, member⟩
  exact ⟨deadlineAtMs, actionability, List.mem_append_left _ member⟩

theorem stable_seenFocused (ref : SemanticTargetRef) : Stable (SeenFocused ref) := by
  rintro past e (⟨deadlineAtMs, member⟩ | ⟨element, native, found, focused⟩)
  · exact .inl ⟨deadlineAtMs, List.mem_append_left _ member⟩
  · exact .inr ⟨element, native, stable_found ref element native past e found, focused⟩

theorem stable_true : Stable fun _ => True := fun _ _ _ => trivial

/-! ### Rules -/

def Fault.IsError (fault : Fault) : Prop := ∀ message, fault ≠ .unreachable message

variable {action : Action} {target : TargetRef} {α β : Type} {R : Past → Prop}

/-- Behind the fence of the request, the program takes what is known from `R` to `Q` of its
value, or fails with an error. -/
def Guarded (action : Action) (target : TargetRef) (R : Past → Prop) (Q : α → Past → Prop)
    (x : NativeM α) : Prop :=
  ∀ past, R past → Judged (fence action target) Q (fun fault _ => fault.IsError) x past

abbrev Keeps (action : Action) (target : TargetRef) (R : Past → Prop) (x : NativeM α) : Prop :=
  Guarded action target R (fun _ => R) x

theorem guarded_pure {Q : α → Past → Prop} {value : α} (holds : ∀ past, R past → Q value past) :
    Guarded action target R Q (pure value) := fun past known => judged_pure (holds past known)

theorem keeps_pure {value : α} : Keeps action target R (pure value) := guarded_pure fun _ => id

theorem guarded_fail {Q : α → Past → Prop} (error : DispatchError) :
    Guarded action target R Q (fail error) :=
  fun _ _ => judged_throw fun _ => Fault.noConfusion

theorem guarded_bind {Q : α → Past → Prop} {S : β → Past → Prop} {x : NativeM α}
    {f : α → NativeM β} (first : Guarded action target R Q x)
    (rest : ∀ a, Guarded action target (Q a) S (f a)) : Guarded action target R S (x >>= f) :=
  fun past known => judged_bind (judged_mono (first past known) rest fun _ _ => id)

theorem guarded_of (R' : Past → Prop) {Q : α → Past → Prop} {x : NativeM α}
    (known : ∀ past, R past → R' past) (guarded : Guarded action target R' Q x) :
    Guarded action target R Q x :=
  fun past holds => guarded past (known past holds)

theorem guarded_mono {Q Q' : α → Past → Prop} {x : NativeM α}
    (guarded : Guarded action target R Q x) (weaker : ∀ a past, Q a past → Q' a past) :
    Guarded action target R Q' x :=
  fun past known => judged_mono (guarded past known) weaker fun _ _ => id

/-- What is known of the request, and not of the past. -/
theorem guarded_given {p : Prop} {Q : α → Past → Prop} {x : NativeM α}
    (guarded : p → Guarded action target R Q x) :
    Guarded action target (fun past => R past ∧ p) Q x :=
  fun past known => guarded known.2 past known.1

theorem guarded_require (c : Prop) [Decidable c] (error : DispatchError) :
    Guarded action target R (fun _ past => R past ∧ ¬ c) (when c (fail error)) :=
  fun past known => judged_when (fun _ => guarded_fail error past known) fun fails => ⟨known, fails⟩

theorem keeps_when (c : Prop) [Decidable c] {x : NativeM Unit} (body : Keeps action target R x) :
    Keeps action target R (when c x) :=
  fun past known => judged_when (fun _ => body past known) fun _ => known

theorem guarded_orFault {ε : Type} (told : ε → DispatchError) (answer : Except ε α) :
    Guarded action target R (fun a past => R past ∧ answer = .ok a) (orFault told answer) := by
  cases answer with
  | ok a => exact guarded_pure fun _ known => ⟨known, rfl⟩
  | error e => exact guarded_fail (told e)

theorem keeps_orFault {ε : Type} (told : ε → DispatchError) (answer : Except ε α) :
    Keeps action target R (orFault told answer) :=
  guarded_mono (guarded_orFault told answer) fun _ _ => And.left

section

variable (stable : Stable R)
include stable

theorem guarded_ask {op : DesktopOp} (allowed : ∀ past, R past → Fenced action target past op) :
    Guarded action target R (fun answer past => R past ∧ (⟨op, answer⟩ : Event Desktop) ∈ past)
      (monadLift (ask op) : NativeM op.Answer) := by
  intro past known
  refine judged_ask (allowed past known) fun answer => ?_
  exact ⟨stable past _ known, List.mem_append_right _ List.mem_cons_self⟩

theorem keeps_ask {op : DesktopOp} (allowed : ∀ past, R past → Fenced action target past op) :
    Keeps action target R (monadLift (ask op) : NativeM op.Answer) :=
  guarded_mono (guarded_ask stable allowed) fun _ _ => And.left

theorem follows_only {p : Prog Desktop α}
    (only : p.Only fun op => ∀ past, R past → Fenced action target past op) {past : Past}
    (known : R past) : p.Follows (fence action target).Move (fun _ => R) past := by
  induction p generalizing past with
  | ret value => exact known
  | ask op next ih =>
    intro answer
    exact ⟨_, ⟨only.1 past known, rfl⟩, ih answer (only.2 answer) (stable past _ known)⟩

theorem keeps_raise {x : DispatchM Desktop α}
    (only : x.run.Only fun op => ∀ past, R past → Fenced action target past op) :
    Keeps action target R (raise x) := by
  intro past known
  refine follows_bind (follows_mono (follows_only stable only known) fun result past' kept => ?_)
  cases result with
  | ok a => exact kept
  | error e => exact fun _ => Fault.noConfusion

omit stable in
theorem only_cancellation :
    boundary.isCancelled.Only fun op => ∀ past, R past → Fenced action target past op :=
  ⟨fun _ _ => trivial, fun _ => trivial⟩

omit stable in
theorem only_clock : boundary.nowMs.Only fun op => ∀ past, R past → Fenced action target past op :=
  ⟨fun _ _ => trivial, fun _ => trivial⟩

theorem keeps_checkBeforeEffect (deadlineAtMs : Int64) :
    Keeps action target R (raise (checkBeforeEffect boundary deadlineAtMs)) :=
  keeps_raise stable (only_checkBeforeEffect only_cancellation only_clock)

theorem keeps_checkAfterEffect (deadlineAtMs : Int64) :
    Keeps action target R (raise (checkAfterEffect boundary deadlineAtMs)) :=
  keeps_raise stable (only_checkAfterEffect only_cancellation only_clock)

theorem keeps_receipt (os : TargetOs) (deadlineAtMs : Int64) :
    Keeps action target R (receipt os deadlineAtMs) :=
  guarded_bind (keeps_checkAfterEffect stable deadlineAtMs) fun _ => keeps_pure

theorem keeps_pointerReceipt (os : TargetOs) (deadlineAtMs : Int64)
    (verification : VerificationPolicy) :
    Keeps action target R (pointerReceipt os deadlineAtMs verification) := by
  unfold pointerReceipt
  split
  · exact guarded_fail _
  · exact keeps_receipt stable os deadlineAtMs

theorem keeps_input {call : InputCall} (error : DispatchError)
    (allowed : ∀ past, R past → Fenced action target past (.input call)) :
    Keeps action target R (input call error) :=
  guarded_bind (keeps_ask stable allowed) fun _ => keeps_orFault _ _

theorem keeps_deed {call : DeedCall}
    (allowed : ∀ past, R past → Fenced action target past (.deed call)) :
    Keeps action target R (deed call) :=
  guarded_bind (keeps_ask stable allowed) fun _ => keeps_orFault _ _

theorem keeps_semantic {call : SemanticCall} (named : target = .element call.target) :
    Keeps action target R (semantic call) :=
  guarded_bind (keeps_ask stable fun _ _ => named) fun _ => keeps_orFault _ _

theorem keeps_repeatedly (deadlineAtMs : Int64) (count : UInt32) (message : String)
    {body : Nat → NativeM Unit} (each : ∀ index, Keeps action target R (body index)) :
    Keeps action target R (repeatedly deadlineAtMs count message body) := by
  intro past known
  refine @judged_forM Desktop Nat Fault Past _ _ past _ (fun _ => R) [] _ known ?_
  intro _ index past _ known
  have checked : Keeps action target R
      (raise (checkPartialDispatch boundary deadlineAtMs index message)) :=
    keeps_raise stable (only_checkPartialDispatch only_cancellation only_clock index message)
  exact guarded_bind checked (fun _ => each index) past known

end

/-! ### Resolved targets -/

/-- What a target is resolved to. -/
def ResolvesTo : TargetRef → ResolvedTarget → Prop
  | .coordinates x y _ _ _ _, resolved => resolved = .point ⟨x, y⟩
  | .element ref, resolved => resolved = .semantic ref
  | .none, resolved => resolved = .none

/-- A resolution does nothing to the desktop, and its value satisfies `Q`. -/
def Resolves (action : Action) (target : TargetRef) (R : Past → Prop) (Q : α → Prop)
    (x : ResolveM α) : Prop :=
  ∀ past, R past →
    Judged (fence action target) (fun a past => R past ∧ Q a) (fun _ => R) x past

theorem resolves_bind {Q : α → Prop} {S : β → Prop} {x : ResolveM α} {f : α → ResolveM β}
    (first : Resolves action target R Q x) (rest : ∀ a, Resolves action target R S (f a)) :
    Resolves action target R S (x >>= f) :=
  fun past known => judged_bind
    (judged_mono (first past known) (fun a past' holds => rest a past' holds.1) fun _ _ => id)

theorem resolves_pure {Q : α → Prop} {value : α} (holds : Q value) :
    Resolves action target R Q (pure value) :=
  fun _ known => judged_pure ⟨known, holds⟩

theorem resolves_throw {Q : α → Prop} (e : ProtocolError) :
    Resolves action target R Q (throw e : ResolveM α) :=
  fun _ known => judged_throw known

section

variable (stable : Stable R)
include stable

theorem resolves_only {x : ResolveM α}
    (only : x.run.Only fun op => ∀ past, R past → Fenced action target past op) :
    Resolves action target R (fun _ => True) x := by
  intro past known
  refine follows_mono (follows_only stable only known) fun result past' kept => ?_
  cases result with
  | ok a => exact ⟨kept, trivial⟩
  | error e => exact kept

theorem resolves_ask {op : DesktopOp} (harmless : ∀ past, Fenced action target past op) :
    Resolves action target R (fun _ => True) (monadLift (ask op) : ResolveM op.Answer) :=
  resolves_only stable ⟨fun past _ => harmless past, fun _ => trivial⟩

theorem resolves_orExecutor (answer : Except NativeError α) :
    Resolves action target R (fun _ => True) (orExecutor answer) :=
  resolves_only stable (by cases answer <;> trivial)

theorem resolves_requireFresh (fresh : Bool) (message : String) :
    Resolves action target R (fun _ => True) (requireFresh fresh message) :=
  resolves_only stable (by cases fresh <;> trivial)

theorem resolves_checkProtocolBoundary (deadlineAtMs : Int64) :
    Resolves action target R (fun _ => True) (checkProtocolBoundary deadlineAtMs) := by
  refine resolves_bind (resolves_ask stable fun _ => trivial) fun cancelled => ?_
  cases cancelled with
  | true => exact resolves_throw _
  | false =>
    refine resolves_bind (resolves_ask stable fun _ => trivial) fun nowMs => ?_
    by_cases late : nowMs ≥ deadlineAtMs
    · simp only [late, if_true]
      exact resolves_throw _
    · simp only [late, if_false]
      exact resolves_pure trivial

theorem resolves_coordinates (build : Build) (x y : Int64)
    (displayId displayGeometryHash snapshotId snapshotContentHash : String) :
    Resolves action target R (· = .point ⟨x, y⟩) (resolveCoordinates build x y displayId
      displayGeometryHash snapshotId snapshotContentHash) := by
  have fresh : ∀ fresh message,
      Resolves action target R (fun _ => True) (requireFresh fresh message) :=
    resolves_requireFresh stable
  refine resolves_bind (resolves_only stable ⟨fun _ _ => trivial, fun _ => trivial⟩) fun _ => ?_
  refine resolves_bind (fresh _ _) fun _ => ?_
  refine resolves_bind (resolves_ask stable fun _ => trivial) fun _ => ?_
  refine resolves_bind (fresh _ _) fun _ => ?_
  refine resolves_bind (resolves_ask stable fun _ => trivial) fun _ => ?_
  refine resolves_bind (fresh _ _) fun _ => ?_
  refine resolves_bind (resolves_ask stable fun _ => trivial) fun _ => ?_
  refine resolves_bind (resolves_orExecutor stable _) fun _ => ?_
  refine resolves_bind (fresh _ _) fun _ => ?_
  refine resolves_bind (resolves_ask stable fun _ => trivial) fun _ => ?_
  refine resolves_bind (resolves_orExecutor stable _) fun _ => ?_
  refine resolves_bind (fresh _ _) fun _ => ?_
  refine resolves_bind (fresh _ _) fun _ => ?_
  exact resolves_pure rfl

/-- Whatever the desktop answers, a target is resolved to one of its own shape. -/
theorem resolves_target (os : TargetOs) (build : Build) (ref : TargetRef) (deadlineAtMs : Int64) :
    Resolves action target R (ResolvesTo ref) (resolveWithBoundary os build ref deadlineAtMs) := by
  refine resolves_bind (resolves_checkProtocolBoundary stable deadlineAtMs) fun _ => ?_
  cases ref with
  | coordinates x y displayId displayGeometryHash snapshotId snapshotContentHash =>
    exact resolves_coordinates stable build x y _ _ _ _
  | element ref =>
    cases os with
    | linux => exact resolves_pure rfl
    | windows => exact resolves_pure rfl
    | macos =>
      refine resolves_bind (resolves_only stable ⟨fun _ _ => trivial, fun _ => trivial⟩) fun _ => ?_
      exact resolves_pure rfl
    | other => exact resolves_throw _
  | none => exact resolves_pure rfl

end

theorem resolved_shape {os : TargetOs} {build : Build} {ref : TargetRef} {deadlineAtMs : Int64}
    {trace : Past} {resolved : ResolvedTarget}
    (run : Steps (resolveWithBoundary os build ref deadlineAtMs).run trace (.ret (.ok resolved))) :
    ResolvesTo ref resolved := by
  have resolves : Resolves .invoke .none (fun _ => True) (ResolvesTo ref)
      (resolveWithBoundary os build ref deadlineAtMs) :=
    resolves_target stable_true os build ref deadlineAtMs
  exact (judged_run (resolves [] trivial) run).2

/-! ### Input -/

/-- What lets an action take the pointer or the keyboard: it points to the coordinates of its
target, or its target has the focus. -/
inductive Covered (action : Action) (target : TargetRef) (R : Past → Prop) : ResolvedTarget → Prop
  where
  | pointed {point : NativePoint} : isPointer action = true → IsAt point target →
      Covered action target R (.point point)
  | focused {ref : SemanticTargetRef} {resolved : ResolvedTarget} : goesToFocus action = true →
      (∀ semantic, resolved ≠ .semantic semantic) → target = .element ref →
      (∀ past, R past → SeenFocused ref past) → Covered action target R resolved

variable {resolved : ResolvedTarget} {os : TargetOs} {deadlineAtMs : Int64} {build : Build}

theorem Covered.behindFocus (covered : Covered action target R resolved)
    (keys : isPointer action = false) :
    ∀ past, R past → ∃ ref, target = .element ref ∧ SeenFocused ref past := by
  cases covered with
  | pointed points _ => exact absurd (keys.symm.trans points) Bool.false_ne_true
  | focused _ _ named seen => exact fun past known => ⟨_, named, seen past known⟩

theorem Covered.atPoint (covered : Covered action target R resolved)
    (pointer : goesToFocus action = false) :
    ∃ point, resolved = .point point ∧ IsAt point target := by
  cases covered with
  | pointed _ at_point => exact ⟨_, rfl, at_point⟩
  | focused focus _ _ _ => exact absurd (pointer.symm.trans focus) Bool.false_ne_true

section

variable (stable : Stable R)
include stable

omit stable in
theorem guarded_nativeTarget (point : NativePoint) :
    Guarded action target R (fun native past => R past ∧ native = .point point)
      (nativeTarget (.point point)) :=
  guarded_pure fun _ known => ⟨known, rfl⟩

theorem keeps_drag {ref : TargetRef} {button : MouseButton} {point : NativePoint}
    (same : action = .drag ref button) (origin : IsAt point target) :
    Keeps action target R (drag os deadlineAtMs build (.point point) ref button) := by
  refine guarded_bind (guarded_require _ _) fun _ => guarded_given fun _ => ?_
  have resolution : Guarded action target R
      (fun result past => R past ∧ ∀ resolved, result = .ok resolved → ResolvesTo ref resolved)
      (monadLift (resolveWithBoundary os build ref deadlineAtMs).run) := by
    intro past known
    have resolves : Judged (fence action target) _ _ _ past :=
      resolves_target stable os build ref deadlineAtMs past known
    rw [Judged, run_monadLift]
    refine follows_bind (follows_mono resolves fun result past' ended => ?_)
    cases result with
    | ok resolved =>
      refine ⟨ended.1, fun resolved' same => ?_⟩
      cases same
      exact ended.2
    | error e =>
      refine ⟨ended, fun resolved same => ?_⟩
      cases same
  refine guarded_bind resolution fun result => guarded_given fun shaped => ?_
  refine guarded_bind (guarded_orFault _ _) fun destination => guarded_given fun found => ?_
  have shape := shaped destination found
  cases destination with
  | point destination =>
    refine guarded_bind (keeps_checkBeforeEffect stable _) fun _ => ?_
    refine keeps_deed stable fun _ _ => ⟨origin, ref, button, same, ?_⟩
    -- Only coordinates are resolved to a point.
    cases ref with
    | coordinates => exact ResolvedTarget.point.inj shape
    | element | none => cases shape
  | element | semantic | none => exact guarded_fail _

theorem keeps_dispatchInput {verification : VerificationPolicy}
    (covered : Covered action target R resolved) :
    Keeps action target R (dispatchInput os deadlineAtMs build resolved verification action) := by
  have ends : Keeps action target R (receipt os deadlineAtMs) := keeps_receipt stable os deadlineAtMs
  have pointerEnds : Keeps action target R (pointerReceipt os deadlineAtMs verification) :=
    keeps_pointerReceipt stable os deadlineAtMs verification
  cases action with
  | typeText text clear pressReturn delayMs =>
    refine guarded_bind (keeps_raise stable ?_) fun _ => ends
    refine only_dispatchTypeText only_cancellation only_clock ?_ _ _ _ _
    exact fun _ _ _ _ => ⟨covered.behindFocus rfl, fun _ => trivial⟩
  | press key count delayMs =>
    refine guarded_bind (keeps_repeatedly stable _ _ _ fun index => ?_) fun _ => ends
    refine guarded_bind (keeps_input stable _ (covered.behindFocus rfl)) fun _ => ?_
    cases delayMs with
    | none => exact keeps_pure
    | some delay => exact keeps_when _ (keeps_ask stable fun _ _ => trivial)
  | paste text =>
    exact guarded_bind (keeps_input stable _ (covered.behindFocus rfl)) fun _ => ends
  | hotkey keys =>
    exact guarded_bind (keeps_input stable _ (covered.behindFocus rfl)) fun _ => ends
  | scroll direction amount =>
    refine guarded_bind (keeps_repeatedly stable _ _ _ fun index => ?_) fun _ => ends
    exact keeps_input stable _ (covered.behindFocus rfl)
  | click button count fallback =>
    obtain ⟨point, rfl, at_point⟩ := covered.atPoint rfl
    refine guarded_bind (guarded_require _ _) fun _ => guarded_given fun _ => ?_
    refine guarded_bind (guarded_require _ _) fun _ => guarded_given fun _ => ?_
    refine guarded_bind (keeps_repeatedly stable _ _ _ fun index => ?_) fun _ => pointerEnds
    refine guarded_bind (guarded_nativeTarget point) fun native => guarded_given fun same => ?_
    subst same
    exact keeps_input stable _ fun _ _ => at_point
  | move =>
    obtain ⟨point, rfl, at_point⟩ := covered.atPoint rfl
    refine guarded_bind (keeps_checkBeforeEffect stable _) fun _ => ?_
    refine guarded_bind (guarded_nativeTarget point) fun native => guarded_given fun same => ?_
    subst same
    exact guarded_bind (keeps_input stable _ fun _ _ => at_point) fun _ => pointerEnds
  | drag ref button =>
    obtain ⟨point, rfl, at_point⟩ := covered.atPoint rfl
    exact guarded_bind (keeps_drag stable rfl at_point) fun _ => pointerEnds
  | invoke | selectText | performSecondaryAction | setValue | screenshot | application | window
  | «open» | clipboardWrite =>
    cases covered with
    | pointed points _ => exact absurd points Bool.false_ne_true
    | focused focus _ _ _ => exact absurd focus Bool.false_ne_true

/-! ### Dispatch -/

theorem keeps_dispatchNative {deliveryPid : Int32} {verification : VerificationPolicy}
    (covered : Covered action target R resolved) :
    Keeps action target R
      (dispatchNative os deadlineAtMs build deliveryPid action resolved verification) := by
  have usable : Keeps action target R (requireUsable resolved) := by
    cases covered with
    | pointed => exact keeps_pure
    | focused _ native _ _ =>
      cases resolved with
      | point => exact keeps_pure
      | none => exact guarded_fail _
      | element => exact keeps_when _ (guarded_fail _)
      | semantic semantic => exact absurd rfl (native semantic)
  refine guarded_bind usable fun _ => ?_
  refine guarded_bind (keeps_when _ (guarded_fail _)) fun _ => ?_
  refine guarded_bind (keeps_ask stable fun _ _ => trivial) fun _ => ?_
  refine guarded_bind (keeps_orFault _ _) fun _ => ?_
  refine guarded_bind (keeps_when _ (guarded_fail _)) fun _ => ?_
  refine guarded_bind (keeps_ask stable fun _ _ => trivial) fun _ => ?_
  refine guarded_bind (keeps_when _ (guarded_fail _)) fun _ => ?_
  exact keeps_dispatchInput stable covered

theorem keeps_command {program : String} {arguments : List (List UInt8)}
    (bare : target = .none ∧ action.isAuxiliary = true) :
    Keeps action target R (command program arguments) :=
  guarded_bind (keeps_ask stable fun _ _ => bare) fun _ => keeps_orFault _ _

theorem keeps_auxiliaryStatus {status : NativeM Bool}
    (bare : target = .none ∧ action.isAuxiliary = true)
    (found : auxiliaryStatus action = some status) : Keeps action target R status := by
  cases action with
  | application operation name => cases operation <;> cases found <;> exact keeps_command stable bare
  | screenshot | window | «open» =>
    cases found
    exact keeps_command stable bare
  | clipboardWrite text =>
    cases found
    exact guarded_bind (keeps_ask stable fun _ _ => bare) fun _ => keeps_orFault _ _
  | _ => nomatch found

omit stable in
theorem auxiliaryStatus_isSome (action : Action) :
    (auxiliaryStatus action).isSome = action.isAuxiliary := by
  cases action with
  | application operation name => cases operation <;> rfl
  | _ => rfl

omit stable in
theorem auxiliaryUnavailable_isSome (action : Action) :
    (auxiliaryUnavailable action).isSome = action.isAuxiliary := by
  cases action <;> rfl

/-- A desktop action does not go on to a target. -/
theorem guarded_dispatchAuxiliary (bare : action.isAuxiliary = true → target = .none) :
    Guarded action target R (fun done past => R past ∧ (done = none → action.isAuxiliary = false))
      (dispatchAuxiliary os deadlineAtMs action) := by
  have started : Keeps action target R (raise (checkBeforeEffect boundary deadlineAtMs)) :=
    keeps_checkBeforeEffect stable deadlineAtMs
  cases os with
  | linux | windows | other =>
    have told := auxiliaryUnavailable_isSome action
    unfold dispatchAuxiliary
    cases unavailable : auxiliaryUnavailable action with
    | none =>
      rw [unavailable] at told
      exact guarded_pure fun _ known => ⟨known, fun _ => told.symm⟩
    | some message => exact guarded_bind started fun _ => guarded_fail _
  | macos =>
    have told := auxiliaryStatus_isSome action
    unfold dispatchAuxiliary
    cases found : auxiliaryStatus action with
    | none =>
      rw [found] at told
      exact guarded_pure fun _ known => ⟨known, fun _ => told.symm⟩
    | some status =>
      rw [found] at told
      have auxiliary : action.isAuxiliary = true := told.symm
      refine guarded_bind started fun _ => ?_
      refine guarded_bind (keeps_auxiliaryStatus stable ⟨bare auxiliary, auxiliary⟩ found) fun _ => ?_
      refine guarded_bind (keeps_when _ (guarded_fail _)) fun _ => ?_
      refine guarded_bind (keeps_receipt stable _ _) fun _ => ?_
      exact guarded_pure fun _ known => ⟨known, fun same => nomatch same⟩

/-- What a dispatch comes to after the desktop actions. -/
theorem keeps_dispatchWith {semantically : Action → SemanticTargetRef → NativeM DispatchReceipt}
    {deliveryPid : Int32} {verification : VerificationPolicy}
    (bare : action.isAuxiliary = true → target = .none)
    (routed : action.isAuxiliary = false → ∀ ref, resolved = .semantic ref →
      Keeps action target R (semantically action ref))
    (covered : action.isAuxiliary = false → (∀ ref, resolved ≠ .semantic ref) →
      Covered action target R resolved) :
    Keeps action target R (dispatchWith os deadlineAtMs semantically build deliveryPid action
      resolved verification) := by
  refine guarded_bind (keeps_checkBeforeEffect stable _) fun _ => ?_
  refine guarded_bind (keeps_ask stable fun _ _ => trivial) fun _ => ?_
  refine guarded_bind (keeps_orFault _ _) fun _ => ?_
  refine guarded_bind (guarded_dispatchAuxiliary stable bare) fun done => guarded_given fun goes => ?_
  cases done with
  | some receipt => exact keeps_pure
  | none =>
    refine guarded_bind (keeps_when _ (guarded_fail _)) fun _ => ?_
    cases resolved with
    | semantic ref => exact routed (goes rfl) ref rfl
    | point | element | none =>
      exact keeps_dispatchNative stable (covered (goes rfl) fun _ same => nomatch same)

/-! ### Semantic targets -/

/-- A second dispatch, once its target was seen to have the focus. -/
theorem keeps_redispatch {ref : SemanticTargetRef} {deliveryPid : Int32}
    (named : target = .element ref) (acts : action.isAuxiliary = false)
    (focus : goesToFocus action = true) (seen : ∀ past, R past → SeenFocused ref past)
    (native : ∀ semantic, resolved ≠ .semantic semantic) :
    Keeps action target R (redispatch os deadlineAtMs build deliveryPid action resolved) :=
  keeps_dispatchWith stable (fun auxiliary => absurd (acts.symm.trans auxiliary) Bool.false_ne_true)
    (fun _ semantic same => absurd same (native semantic))
    fun _ _ => .focused focus native named seen

theorem keeps_macDeed {ref : SemanticTargetRef} {element : AxElement} {native : NativeElement}
    (named : target = .element ref) (found : ∀ past, R past → Found ref element native past) :
    Keeps action target R (macDeed deadlineAtMs element action) := by
  have allowed := fun past known => (⟨ref, native, named, found past known⟩ :
    ∃ ref native, target = .element ref ∧ Found ref element native past)
  cases action with
  | invoke | setValue | selectText | performSecondaryAction => exact keeps_deed stable allowed
  | _ => exact guarded_fail _

theorem keeps_scrollAction (element : AxElement) :
    Keeps action target R (scrollAction element action) := by
  cases action with
  | scroll direction amount =>
    cases direction <;>
      refine guarded_bind (keeps_ask stable fun _ _ => trivial) fun actions => ?_ <;>
      cases actions <;> exact keeps_pure
  | _ => exact keeps_pure

end

/-- The element of a target was found for it. -/
theorem guarded_macElement (ref : SemanticTargetRef) :
    Guarded action target (fun _ => True) (fun found => Found ref found.1 found.2)
      (macElement deadlineAtMs action ref) := by
  refine guarded_bind (keeps_checkBeforeEffect stable_true _) fun _ => ?_
  refine guarded_bind (guarded_ask stable_true fun _ _ => trivial) fun answer => ?_
  refine guarded_bind (guarded_orFault _ _) fun resolved => guarded_given fun same => ?_
  subst same
  obtain ⟨element, native, actionability⟩ := resolved
  refine guarded_of (Found ref element native) (fun past known => ⟨_, _, known.2⟩) ?_
  have stable := stable_found ref element native
  refine guarded_bind (keeps_when _ (guarded_fail _)) fun _ => ?_
  refine guarded_bind (keeps_ask stable fun _ _ => trivial) fun _ => ?_
  refine guarded_bind (keeps_orFault _ _) fun _ => ?_
  refine guarded_bind (keeps_when _ (guarded_fail _)) fun _ => ?_
  exact guarded_pure fun _ => id

theorem guarded_macDispatchSemantic {ref : SemanticTargetRef} (named : target = .element ref)
    (acts : action.isAuxiliary = false) :
    Guarded action target (fun _ => True) (fun _ _ => True)
      (macDispatchSemantic deadlineAtMs (redispatch os deadlineAtMs build) action ref) := by
  refine guarded_bind (guarded_macElement ref) fun found => ?_
  obtain ⟨element, native⟩ := found
  have stable := stable_found ref element native
  refine guarded_bind (keeps_scrollAction stable element) fun scrolls => ?_
  cases scrolls with
  | some scroll =>
    refine guarded_bind (keeps_deed stable fun past known => ?_) fun _ => ?_
    · exact ⟨ref, native, named, known⟩
    · exact guarded_pure fun _ _ => trivial
  | none =>
    dsimp only
    split
    next focus =>
      refine guarded_bind (guarded_require _ _) fun _ => guarded_given fun focused => ?_
      have seen : ∀ past, Found ref element native past → SeenFocused ref past := by
        refine fun past known => .inr ⟨element, native, known, ?_⟩
        simpa only [Bool.not_eq_true', Bool.not_eq_false] using focused
      refine guarded_mono (keeps_redispatch stable named acts focus seen ?_) fun _ _ _ => trivial
      exact fun _ same => nomatch same
    next =>
      refine guarded_bind (keeps_macDeed stable named fun _ => id) fun _ => ?_
      refine guarded_bind (keeps_checkAfterEffect stable _) fun _ => ?_
      exact guarded_pure fun _ _ => trivial

theorem guarded_dispatchToFocus {ref : SemanticTargetRef} (named : target = .element ref)
    (acts : action.isAuxiliary = false) (focus : goesToFocus action = true) :
    Guarded action target (fun _ => True) (fun _ _ => True)
      (dispatchToFocus deadlineAtMs (redispatch os deadlineAtMs build) action ref) := by
  refine guarded_bind (guarded_ask stable_true fun _ _ => trivial) fun answer => ?_
  refine guarded_bind (guarded_orFault _ _) fun focused => guarded_given fun told => ?_
  subst told
  refine guarded_of (SeenFocused focused) (fun past known => .inl ⟨_, known.2⟩) ?_
  refine guarded_bind (guarded_require _ _) fun _ => guarded_given fun same => ?_
  obtain rfl := not_not.mp same
  refine guarded_mono (keeps_redispatch (stable_seenFocused focused) named acts focus (fun _ => id)
    fun _ same => ?_) fun _ _ _ => trivial
  nomatch same

theorem guarded_semantic {call : SemanticCall} (named : target = .element call.target) :
    Guarded action target (fun _ => True) (fun _ _ => True) (semantic call) :=
  keeps_semantic stable_true named

theorem guarded_dispatchSemantic {ref : SemanticTargetRef} (named : target = .element ref)
    (acts : action.isAuxiliary = false) :
    Guarded action target (fun _ => True) (fun _ _ => True)
      (dispatchSemantic os deadlineAtMs (redispatch os deadlineAtMs build) action ref) := by
  cases os with
  | macos => exact guarded_macDispatchSemantic named acts
  | other => exact guarded_fail _
  | linux =>
    refine guarded_bind (keeps_ask stable_true fun _ _ => trivial) fun _ => ?_
    refine guarded_bind (keeps_orFault _ _) fun _ => ?_
    split
    next focus => exact guarded_dispatchToFocus named acts focus
    next =>
      cases action with
      | invoke | setValue => exact guarded_semantic named
      | _ => exact guarded_fail _
  | windows =>
    unfold dispatchSemantic windowsDispatchSemantic
    dsimp only
    split
    next focus => exact guarded_dispatchToFocus named acts focus
    next away =>
      cases action with
      | invoke | setValue => exact guarded_semantic named
      | scroll => exact absurd rfl away
      | _ => exact guarded_fail _

/-! ### Accepted requests -/

def isCoordinates : TargetRef → Bool
  | .coordinates .. => true
  | _ => false

/-- What an accepted request says of its action and its target. -/
structure Admitted (action : Action) (target : TargetRef) : Prop where
  bare : action.isAuxiliary = true → target = .none
  targeted : target = .none → action.isAuxiliary = true
  pointed : isCoordinates target = true → isPointer action = true

theorem guarded_ok {ε : Type} {c : Prop} [Decidable c] {refused rest : Except ε Unit}
    (passed : (if c then refused >>= fun _ => rest else rest) = .ok ()) (e : ε)
    (fails : refused = .error e) : ¬ c ∧ rest = .ok () := by
  subst fails
  by_cases holds : c
  · rw [if_pos holds] at passed
    cases passed
  · rw [if_neg holds] at passed
    exact ⟨holds, passed⟩

theorem pointer_of_check {action : Action} {target : TargetRef}
    (passed : ¬ ((target matches .coordinates ..) &&
      !(action matches .click .. | .move | .drag ..)) = true)
    (coordinates : isCoordinates target = true) : isPointer action = true := by
  cases target with
  | coordinates =>
    cases action with
    | click | move | drag => rfl
    | _ => exact absurd rfl passed
  | element | none => exact absurd coordinates Bool.false_ne_true

theorem admitted_of_accepted {isDir : PathBuf → Bool} {request : ActionRequest}
    (accepted : validateRequest build isDir request = .ok ()) :
    Admitted request.action request.target := by
  unfold validateRequest at accepted
  obtain ⟨_, accepted⟩ := guarded_ok accepted _ rfl
  obtain ⟨_, accepted⟩ := guarded_ok accepted _ rfl
  obtain ⟨_, accepted⟩ := guarded_ok accepted _ rfl
  obtain ⟨_, accepted⟩ := guarded_ok accepted _ rfl
  obtain ⟨targeted, accepted⟩ := guarded_ok accepted _ rfl
  obtain ⟨bare, accepted⟩ := guarded_ok accepted _ rfl
  cases valid : validateAction isDir request.action with
  | error e =>
    rw [valid] at accepted
    cases accepted
  | ok =>
    rw [valid] at accepted
    obtain ⟨pointed, _⟩ := guarded_ok accepted _ rfl
    refine ⟨fun auxiliary => ?_, fun none => ?_, pointer_of_check pointed⟩
    · simp only [auxiliary, Bool.true_and, Bool.or_eq_true, decide_eq_true_eq, not_or,
        not_not] at bare
      exact bare.1
    · simpa only [none, decide_true, Bool.true_and, Bool.not_eq_true', Bool.not_eq_false] using targeted

/-! ### Requests -/

theorem guarded_dispatch (admitted : Admitted action target) (shape : ResolvesTo target resolved)
    (deliveryPid : Int32) (verification : VerificationPolicy) :
    Guarded action target (fun _ => True) (fun _ _ => True)
      (dispatch os deadlineAtMs build deliveryPid action resolved verification) := by
  refine keeps_dispatchWith stable_true admitted.bare (fun acts ref same => ?_)
    fun acts native => ?_
  · -- Only an element is resolved to a semantic target, and that is the element itself.
    subst same
    cases target with
    | element ref =>
      cases shape
      exact guarded_dispatchSemantic rfl acts
    | coordinates | none => nomatch shape
  · cases target with
    | coordinates x y =>
      cases shape
      exact .pointed (admitted.pointed rfl) rfl
    | element ref => exact absurd shape (native ref)
    | none => exact absurd (acts.symm.trans (admitted.targeted rfl)) Bool.false_ne_true

theorem nonempty_answer (op : DesktopOp) : Nonempty op.Answer := by
  cases op with
  | isCancelled => exact ⟨false⟩
  | now => exact ⟨(0 : Int64)⟩
  | directories => exact ⟨fun _ => false⟩
  | globalInputAllowed => exact ⟨false⟩
  | sleep => exact ⟨()⟩
  | listScreens | screenContentHash | connect | input | status => exact ⟨.error ⟨⟩⟩
  | actions => exact ⟨.error ⟨⟩⟩
  | loadCoordinateObservation | capabilities | resolveRecordedElement | macLiveActionability
  | focusedTarget => exact ⟨.error .conflict⟩
  | deed | semantic => exact ⟨.error .ambiguousDispatch⟩
  | copy => exact ⟨.error .failed⟩

/-- For an accepted request and a target it is resolved to, the dispatch ends in none of the
branches taken for impossible, and it comes to no effect but behind its fence. -/
theorem dispatch_fenced (os : TargetOs) (build : Build) (isDir : PathBuf → Bool)
    (request : ActionRequest) (accepted : validateRequest build isDir request = .ok ())
    (resolveDeadlineAtMs dispatchDeadlineAtMs : Int64) (deliveryPid : Int32)
    {resolution : List (Event Desktop)} {resolved : ResolvedTarget}
    (resolves : Steps (resolveWithBoundary os build request.target resolveDeadlineAtMs).run
      resolution (.ret (.ok resolved)))
    {history : List (Event Desktop)} {p : Prog Desktop (Except Fault DispatchReceipt)}
    (run : Steps (dispatch os dispatchDeadlineAtMs build deliveryPid request.action resolved
      request.verification).run history p) :
    (∀ message, p ≠ .ret (.error (.unreachable message))) ∧
      ∀ op next, p = .ask op next → Fenced request.action request.target history op := by
  have guarded : Guarded request.action request.target (fun _ => True) (fun _ _ => True)
      (dispatch os dispatchDeadlineAtMs build deliveryPid request.action resolved
        request.verification) :=
    guarded_dispatch (admitted_of_accepted accepted) (resolved_shape resolves) deliveryPid _
  have reached := follows_steps (guarded [] trivial) run
  constructor
  · rintro message rfl
    exact reached message rfl
  · rintro op next rfl
    obtain ⟨answer⟩ := nonempty_answer op
    obtain ⟨_, moved, _⟩ := reached answer
    have allowed := moved.1
    rwa [after_fence, List.nil_append] at allowed

/-! ### A key press -/

def pressRequest : ActionRequest := { benchRequest .interactive with action := .press "a" 1 none }

/-- A Linux desktop on which the target of that request has the focus. -/
def focusedDesktop (op : DesktopOp) (nowMs : Int64) : op.Answer × Int64 :=
  match op with
  | .isCancelled => (false, nowMs)
  | .now => (nowMs, nowMs + 1)
  | .directories => (fun _ => true, nowMs)
  | .connect => (.ok (), nowMs)
  | .focusedTarget _ => (.ok benchTarget, nowMs)
  | .capabilities => (.ok ⟨["press"], []⟩, nowMs)
  | .globalInputAllowed => (true, nowMs)
  | .listScreens | .screenContentHash | .input _ | .status _ => (.error ⟨⟩, nowMs)
  | .actions _ => (.error ⟨⟩, nowMs)
  | .loadCoordinateObservation _ | .resolveRecordedElement .. | .macLiveActionability .. =>
    (.error .conflict, nowMs)
  | .sleep _ => ((), nowMs)
  | .deed _ | .semantic _ => (.error .ambiguousDispatch, nowMs)
  | .copy _ => (.error .failed, nowMs)

def isPressOfA : DesktopOp → Bool
  | .input (.press key count none) => key = "a" && count = 1
  | _ => false

def isBenchTarget : Except ProtocolError ResolvedTarget → Bool
  | .ok (.semantic ref) => ref = benchTarget
  | _ => false

theorem dispatch_fenced_press : ∃ (history : List (Event Desktop)) (op : DesktopOp)
    (next : op.Answer → Prog Desktop (Except Fault DispatchReceipt)),
    isPressOfA op = true ∧
    Steps (dispatch .linux 1000 (benchBuild .interactive) 0 pressRequest.action
      (.semantic benchTarget) .none).run history (.ask op next) ∧
    Fenced pressRequest.action pressRequest.target history op := by
  have played :
      (play focusedDesktop 2 (resolveWithBoundary .linux (benchBuild .interactive)
        pressRequest.target 1000).run 0).2.1.returned?.any isBenchTarget = true ∧
      (play focusedDesktop 12 (dispatch .linux 1000 (benchBuild .interactive) 0 pressRequest.action
        (.semantic benchTarget) .none).run 0).2.1.asked?.any isPressOfA = true ∧
      (validateRequest (benchBuild .interactive) (fun _ => true) pressRequest).isOk = true := by
    decide +kernel
  obtain ⟨resolvedTo, askedFor, valid⟩ := played
  have accepted : validateRequest (benchBuild .interactive) (fun _ => true) pressRequest = .ok () := by
    cases result : validateRequest (benchBuild .interactive) (fun _ => true) pressRequest with
    | ok => rfl
    | error e =>
      rw [result] at valid
      exact absurd valid Bool.false_ne_true
  obtain ⟨result, same, resolves⟩ := steps_returned resolvedTo
  obtain ⟨op, next, press, run⟩ := steps_asked (I := Desktop) askedFor
  refine ⟨_, op, next, press, run, ?_⟩
  obtain rfl : result = .ok (.semantic benchTarget) := by
    cases result with
    | error => exact absurd same Bool.false_ne_true
    | ok resolved =>
      cases resolved with
      | semantic ref => rw [of_decide_eq_true same]
      | _ => exact absurd same Bool.false_ne_true
  exact (dispatch_fenced .linux (benchBuild .interactive) (fun _ => true) pressRequest accepted 1000
    1000 0 resolves run).2 op next rfl

end Native

end Praefectus
