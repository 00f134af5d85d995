import Praefectus.Native.Fenced

/-!
# The fence of a coordinate

A coordinate is resolved only against the observation it was taken from: that has to be stored,
to match, and to be recent, and the screens of the moment have to be the ones it was taken from.
Sums that would overflow are cut off at the largest number, which lets no point in. The two ends
of a drag are resolved in two places, each of them behind this fence.
-/

/-! ### Clamped arithmetic -/

namespace Int64

theorem maxValue_toInt : Int64.maxValue.toInt = 2 ^ 63 - 1 := by decide

theorem minValue_toInt : Int64.minValue.toInt = -2 ^ 63 := by decide

/-- What is below a clamped number is below the number. -/
theorem lt_of_lt_ofIntClamp {x : Int64} {i : Int} (below : x < Int64.ofIntClamp i) : x.toInt < i := by
  have within := x.toInt_lt
  have above := x.le_toInt
  rw [Int64.lt_iff_toInt_lt] at below
  by_cases low : Int64.minValue.toInt ≤ i
  · by_cases high : i ≤ Int64.maxValue.toInt
    · rwa [Int64.toInt_ofIntClamp low high] at below
    · rw [maxValue_toInt] at high
      omega
  · -- Nothing is below the least number.
    rw [Int64.ofIntClamp, dif_neg low, minValue_toInt] at below
    omega

/-- What a clamped number is below of, short of the largest, the number is below of as well. -/
theorem le_of_ofIntClamp_le {i : Int} {bound : Int64} (below : Int64.ofIntClamp i ≤ bound)
    (short : bound < Int64.maxValue) : i ≤ bound.toInt := by
  rw [Int64.le_iff_toInt_le] at below
  rw [Int64.lt_iff_toInt_lt] at short
  have above := bound.le_toInt
  by_cases low : Int64.minValue.toInt ≤ i
  · by_cases high : i ≤ Int64.maxValue.toInt
    · rwa [Int64.toInt_ofIntClamp low high] at below
    · rw [Int64.ofIntClamp, dif_pos low, dif_neg high] at below
      omega
  · rw [minValue_toInt] at low
    omega

end Int64

namespace Praefectus.Native

open Prog

/-! ### The fence -/

/-- A screen that carries the name, in any of its three fields. -/
def IsNamed (displayId : String) (screen : Json) : Prop :=
  ∃ key ∈ ["id", "name", "display_id"], (screen.get? key).bind Json.asStr = some displayId

/-- The point is inside the bounds of the screen, of which none overflow. -/
def Contains (screen : Json) (x y : Int64) : Prop :=
  ∃ left top width height : Int64,
    (screen.get? "x").bind asI64 = some left ∧ (screen.get? "y").bind asI64 = some top ∧
    (screen.get? "width").bind asI64 = some width ∧
    (screen.get? "height").bind asI64 = some height ∧
    (left.toInt ≤ x.toInt ∧ x.toInt < left.toInt + width.toInt) ∧
    top.toInt ≤ y.toInt ∧ y.toInt < top.toInt + height.toInt

theorem isOnScreen_sound {x y : Int64} {displayId : String} {screen : Json}
    (inside : isOnScreen x y displayId screen = true) :
    IsNamed displayId screen ∧ Contains screen x y := by
  unfold isOnScreen at inside
  rw [Bool.and_eq_true] at inside
  obtain ⟨named, bounded⟩ := inside
  constructor
  · obtain ⟨key, member, same⟩ := List.any_eq_true.mp named
    exact ⟨key, member, of_decide_eq_true same⟩
  · split at bounded
    next left top width height hasLeft hasTop hasWidth hasHeight =>
      simp only [Bool.and_eq_true, decide_eq_true_eq] at bounded
      obtain ⟨⟨⟨⟨⟨_, _⟩, fromLeft⟩, fromTop⟩, toRight⟩, toBottom⟩ := bounded
      refine ⟨left, top, width, height, hasLeft, hasTop, hasWidth, hasHeight, ⟨?_, ?_⟩, ?_, ?_⟩
      · exact Int64.le_iff_toInt_le.mp fromLeft
      · exact Int64.lt_of_lt_ofIntClamp toRight
      · exact Int64.le_iff_toInt_le.mp fromTop
      · exact Int64.lt_of_lt_ofIntClamp toBottom
    next => exact absurd bounded Bool.false_ne_true

/-- How long before a time something was observed. -/
def age (observation : CoordinateObservation) (nowMs : Int64) : Int :=
  nowMs.toInt - observation.observedAtMs.toInt

def IsRecent (observation : CoordinateObservation) (nowMs : Int64) : Prop :=
  0 ≤ age observation nowMs ∧ age observation nowMs ≤ maxCoordinateObservationAgeMs.toInt

/-- What was looked at while a coordinate was let through, and what was found. The clock is
read twice; the observation is not from after the first reading, and not too old at the second,
so that on a clock that does not go back its age is right at both. -/
structure Passes (build : Build) (x y : Int64)
    (displayId displayGeometryHash snapshotId snapshotContentHash : String)
    (observation : CoordinateObservation) (first second : Int64) (screens : Json)
    (contentHash : String) : Prop where
  version : observation.protocolVersion = protocolVersion
  snapshot : observation.snapshotId = snapshotId
  geometry : observation.displayGeometryHash = displayGeometryHash
  content : observation.snapshotContentHash = snapshotContentHash
  started : 0 ≤ age observation first
  recent : age observation second ≤ maxCoordinateObservationAgeMs.toInt
  aged : first ≤ second → IsRecent observation first ∧ IsRecent observation second
  currentGeometry : hashSerializable build screens = displayGeometryHash
  currentContent : contentHash = snapshotContentHash
  onDisplay : ∃ values, Cdp.asArray screens = some values ∧
    ∃ screen ∈ values, IsNamed displayId screen ∧ Contains screen x y

/-- A target that was let through to a point: the end of what happened is what the fence
looked at. -/
def Passed (build : Build) (target : TargetRef) (point : NativePoint) (trace : Past) : Prop :=
  ∃ x y displayId displayGeometryHash snapshotId snapshotContentHash,
    target = .coordinates x y displayId displayGeometryHash snapshotId snapshotContentHash ∧
    point = ⟨x, y⟩ ∧
    ∃ before observation first second screens contentHash,
      trace = before ++ [⟨.loadCoordinateObservation snapshotId, .ok observation⟩, ⟨.now, first⟩,
        ⟨.now, second⟩, ⟨.listScreens, .ok screens⟩, ⟨.screenContentHash, .ok contentHash⟩] ∧
      Passes build x y displayId displayGeometryHash snapshotId snapshotContentHash observation
        first second screens contentHash

/-! ### Resolution -/

theorem steps_requireFresh {fresh : Bool} {message : String} {trace : Past} {value : Unit}
    (run : Steps (requireFresh fresh message).run trace (.ret (.ok value))) :
    trace = [] ∧ fresh = true := by
  cases fresh with
  | true => exact ⟨(steps_ret.mp run).1, rfl⟩
  | false => exact absurd (steps_ret.mp run).2 nofun

theorem steps_orExecutor {α : Type} {answer : Except NativeError α} {trace : Past} {value : α}
    (run : Steps (orExecutor answer).run trace (.ret (.ok value))) :
    trace = [] ∧ answer = .ok value := by
  cases answer with
  | ok a =>
    obtain ⟨none, same⟩ := steps_ret.mp run
    cases same
    exact ⟨none, rfl⟩
  | error e => exact absurd (steps_ret.mp run).2 nofun

theorem resolveCoordinates_passes {build : Build} {x y : Int64}
    {displayId displayGeometryHash snapshotId snapshotContentHash : String} {trace : Past}
    {resolved : ResolvedTarget}
    (run : Steps (resolveCoordinates build x y displayId displayGeometryHash snapshotId
      snapshotContentHash).run trace (.ret (.ok resolved))) :
    resolved = .point ⟨x, y⟩ ∧ ∃ observation first second screens contentHash,
      trace = [⟨.loadCoordinateObservation snapshotId, .ok observation⟩, ⟨.now, first⟩,
        ⟨.now, second⟩, ⟨.listScreens, .ok screens⟩, ⟨.screenContentHash, .ok contentHash⟩] ∧
      Passes build x y displayId displayGeometryHash snapshotId snapshotContentHash observation
        first second screens contentHash := by
  obtain ⟨_, observation, _, rfl, loaded, run⟩ := steps_try_ok run
  obtain ⟨_, _, _, rfl, requireMatch, run⟩ := steps_try_ok run
  obtain ⟨_, first, _, rfl, readFirst, run⟩ := steps_after run
  obtain ⟨_, _, _, rfl, requireStarted, run⟩ := steps_try_ok run
  obtain ⟨_, second, _, rfl, readSecond, run⟩ := steps_after run
  obtain ⟨_, _, _, rfl, requireRecent, run⟩ := steps_try_ok run
  obtain ⟨_, listed, _, rfl, readScreens, run⟩ := steps_after run
  obtain ⟨_, screens, _, rfl, found, run⟩ := steps_try_ok run
  obtain ⟨_, _, _, rfl, requireGeometry, run⟩ := steps_try_ok run
  obtain ⟨_, hashed, _, rfl, readContent, run⟩ := steps_after run
  obtain ⟨_, contentHash, _, rfl, known, run⟩ := steps_try_ok run
  obtain ⟨_, _, _, rfl, requireContent, run⟩ := steps_try_ok run
  obtain ⟨_, _, _, rfl, requireDisplay, last⟩ := steps_try_ok run
  -- The questions, in their order.
  obtain rfl := steps_ask.mp loaded
  obtain rfl := steps_ask.mp readFirst
  obtain rfl := steps_ask.mp readSecond
  obtain rfl := steps_ask.mp readScreens
  obtain rfl := steps_ask.mp readContent
  -- What was required of the answers.
  obtain ⟨rfl, matched⟩ := steps_requireFresh requireMatch
  obtain ⟨rfl, started⟩ := steps_requireFresh requireStarted
  obtain ⟨rfl, recent⟩ := steps_requireFresh requireRecent
  obtain ⟨rfl, rfl⟩ := steps_orExecutor found
  obtain ⟨rfl, geometry⟩ := steps_requireFresh requireGeometry
  obtain ⟨rfl, rfl⟩ := steps_orExecutor known
  obtain ⟨rfl, content⟩ := steps_requireFresh requireContent
  obtain ⟨rfl, onDisplay⟩ := steps_requireFresh requireDisplay
  obtain ⟨rfl, same⟩ := steps_ret.mp last
  cases same
  refine ⟨rfl, observation, first, second, screens, contentHash, rfl, ?_⟩
  simp only [Bool.and_eq_true, decide_eq_true_eq] at matched
  obtain ⟨⟨⟨version, snapshot⟩, geometry'⟩, content'⟩ := matched
  have notLater : observation.observedAtMs ≤ first := of_decide_eq_true started
  have notOld : saturatingSub second observation.observedAtMs ≤ maxCoordinateObservationAgeMs :=
    of_decide_eq_true recent
  have begun : 0 ≤ age observation first := by
    have := Int64.le_iff_toInt_le.mp notLater
    unfold age
    omega
  have recent : age observation second ≤ maxCoordinateObservationAgeMs.toInt :=
    Int64.le_of_ofIntClamp_le notOld (by decide)
  refine ⟨version, snapshot, geometry', content', begun, recent, ?_, of_decide_eq_true geometry,
    of_decide_eq_true content, ?_⟩
  · intro forward
    have forward := Int64.le_iff_toInt_le.mp forward
    unfold IsRecent age at *
    omega
  · obtain ⟨values, array, some⟩ := (Option.any_eq_true _ _).mp onDisplay
    obtain ⟨screen, member, inside⟩ := List.any_eq_true.mp some
    exact ⟨values, array, screen, member, isOnScreen_sound inside⟩

/-- A target is resolved to a point only behind the fence. -/
theorem resolve_passed {os : TargetOs} {build : Build} {target : TargetRef} {deadlineAtMs : Int64}
    {trace : Past} {point : NativePoint}
    (run : Steps (resolveWithBoundary os build target deadlineAtMs).run trace
      (.ret (.ok (.point point)))) : Passed build target point trace := by
  obtain ⟨before, _, _, rfl, _, run⟩ := steps_try_ok run
  cases target with
  | coordinates x y displayId displayGeometryHash snapshotId snapshotContentHash =>
    obtain ⟨same, observation, first, second, screens, contentHash, rfl, passes⟩ :=
      resolveCoordinates_passes run
    obtain rfl := ResolvedTarget.point.inj same
    exact ⟨x, y, displayId, displayGeometryHash, snapshotId, snapshotContentHash, rfl, rfl, before,
      observation, first, second, screens, contentHash, rfl, passes⟩
  | element ref =>
    cases os with
    | linux => exact absurd (steps_ret.mp run).2 nofun
    | windows => exact absurd (steps_ret.mp run).2 nofun
    | macos =>
      obtain ⟨_, _, _, _, _, run⟩ := steps_try_ok run
      exact absurd (steps_ret.mp run).2 nofun
    | other => exact absurd (steps_ret.mp run).2 nofun
  | none => exact absurd (steps_ret.mp run).2 nofun

/-! ### The question of a drag -/

/-- Any question but the native drag. -/
def NotDrag : DesktopOp → Prop
  | .deed (.drag ..) => False
  | _ => True

theorem only_raise {α : Type} {P : DesktopOp → Prop} {x : DispatchM Desktop α}
    (only : x.run.Only P) : (raise x).run.Only P := by
  refine only_bind only fun result => ?_
  cases result <;> trivial

theorem only_orFault {α ε : Type} {P : DesktopOp → Prop} (told : ε → DispatchError)
    (answer : Except ε α) : (orFault told answer).run.Only P := by
  cases answer <;> trivial

theorem only_ask {op : DesktopOp} (other : NotDrag op) : (ask op).Only NotDrag :=
  ⟨other, fun _ => trivial⟩

theorem only_asked {α : Type} {op : DesktopOp} {f : op.Answer → NativeM α} (other : NotDrag op)
    (rest : ∀ answer, (f answer).run.Only NotDrag) :
    ((monadLift (ask op) : NativeM op.Answer) >>= f).run.Only NotDrag :=
  only_try (only_lift (only_ask other)) rest

theorem only_before (deadlineAtMs : Int64) :
    (raise (checkBeforeEffect boundary deadlineAtMs)).run.Only NotDrag :=
  only_raise (only_checkBeforeEffect (only_ask trivial) (only_ask trivial))

theorem only_after (deadlineAtMs : Int64) :
    (raise (checkAfterEffect boundary deadlineAtMs)).run.Only NotDrag :=
  only_raise (only_checkAfterEffect (only_ask trivial) (only_ask trivial))

theorem only_refuse {c : Prop} [Decidable c] (error : DispatchError) :
    (Prog.when c (fail error)).run.Only NotDrag :=
  only_when trivial

theorem only_require (fresh : Bool) (message : String) :
    (requireFresh fresh message).run.Only NotDrag := by
  cases fresh <;> trivial

theorem only_executor {α : Type} (answer : Except NativeError α) :
    (orExecutor answer).run.Only NotDrag := by
  cases answer <;> trivial

theorem only_resolveCoordinates (build : Build) (x y : Int64)
    (displayId displayGeometryHash snapshotId snapshotContentHash : String) :
    (resolveCoordinates build x y displayId displayGeometryHash snapshotId
      snapshotContentHash).run.Only NotDrag := by
  refine only_try (only_ask trivial) fun _ => ?_
  refine only_try (only_require _ _) fun _ => ?_
  refine only_try (only_lift (only_ask trivial)) fun _ => only_try (only_require _ _) fun _ => ?_
  refine only_try (only_lift (only_ask trivial)) fun _ => only_try (only_require _ _) fun _ => ?_
  refine only_try (only_lift (only_ask trivial)) fun _ => only_try (only_executor _) fun _ => ?_
  refine only_try (only_require _ _) fun _ => ?_
  refine only_try (only_lift (only_ask trivial)) fun _ => only_try (only_executor _) fun _ => ?_
  exact only_try (only_require _ _) fun _ => only_try (only_require _ _) fun _ => trivial

theorem only_resolveWithBoundary (os : TargetOs) (build : Build) (target : TargetRef)
    (deadlineAtMs : Int64) :
    (resolveWithBoundary os build target deadlineAtMs).run.Only NotDrag := by
  refine only_try ?_ fun _ => ?_
  · refine only_try (only_lift (only_ask trivial)) fun cancelled => ?_
    cases cancelled with
    | true => trivial
    | false =>
      refine only_try (only_lift (only_ask trivial)) fun nowMs => ?_
      by_cases late : nowMs ≥ deadlineAtMs
      · simp only [late, if_true]
        trivial
      · simp only [late, if_false]
        trivial
  · cases target with
    | coordinates => exact only_resolveCoordinates build _ _ _ _ _ _
    | element ref =>
      cases os with
      | macos => exact only_try (only_ask trivial) fun _ => trivial
      | _ => trivial
    | none => trivial

variable (os : TargetOs) (deadlineAtMs : Int64)

theorem only_pointerReceipt (verification : VerificationPolicy) :
    (pointerReceipt os deadlineAtMs verification).run.Only NotDrag := by
  unfold pointerReceipt
  split
  · trivial
  · exact only_try (only_after deadlineAtMs) fun _ => trivial

/-- A drag to a semantic target is refused. -/
theorem only_dragSemantic (redispatch : Redispatch) (destination : TargetRef) (button : MouseButton)
    (ref : SemanticTargetRef) :
    (dispatchSemantic os deadlineAtMs redispatch (.drag destination button) ref).run.Only NotDrag := by
  cases os with
  | macos =>
    refine only_try ?_ fun found => ?_
    · refine only_try (only_before deadlineAtMs) fun _ => only_asked trivial fun _ => ?_
      refine only_try (only_orFault _ _) fun _ => only_try (only_refuse _) fun _ => ?_
      refine only_asked trivial fun _ => only_try (only_orFault _ _) fun _ => ?_
      exact only_try (only_refuse _) fun _ => trivial
    · refine only_try trivial fun scrolls => ?_
      cases scrolls with
      | some scroll =>
        refine only_try (only_asked trivial fun _ => only_orFault _ _) fun _ => ?_
        trivial
      | none => trivial
  | linux => exact only_asked trivial fun _ => only_try (only_orFault _ _) fun _ => trivial
  | windows => trivial
  | other => trivial

/-- The drag waits until what asks other questions is over. -/
theorem asks_later {α β : Type} {x : NativeM α} {f : α → NativeM β} {trace : Past} {op : DesktopOp}
    {next : op.Answer → Prog Desktop (Except Fault β)} (only : x.run.Only NotDrag)
    (drags : ¬ NotDrag op) (run : Steps (x >>= f).run trace (.ask op next)) :
    ∃ first a rest, trace = first ++ rest ∧ Steps x.run first (.ret (.ok a)) ∧
      Steps (f a).run rest (.ask op next) := by
  rcases steps_try_ask run with ⟨_, inside⟩ | found
  · exact absurd (only_pending only inside) drags
  · exact found

theorem steps_orFault {α ε : Type} {told : ε → DispatchError} {answer : Except ε α} {trace : Past}
    {value : α} (run : Steps (orFault told answer).run trace (.ret (.ok value))) :
    trace = [] ∧ answer = .ok value := by
  cases answer with
  | ok a =>
    obtain ⟨none, same⟩ := steps_ret.mp run
    cases same
    exact ⟨none, rfl⟩
  | error e => exact absurd (steps_ret.mp run).2 nofun

theorem only_deed (call : DeedCall) : (deed call).run.Only fun op : DesktopOp => op = .deed call :=
  only_try (only_lift ⟨rfl, fun _ => trivial⟩) fun _ => only_orFault _ _

/-- The one end of a drag is what the target was resolved to, and the other was let through
by a fence of its own in the course of what happened. -/
def DragPassed (build : Build) (resolved : ResolvedTarget) (destination : TargetRef)
    (history : Past) (origin point : NativePoint) : Prop :=
  resolved = .point origin ∧ ∃ before segment after,
    history = before ++ segment ++ after ∧ Passed build destination point segment

section

variable {os : TargetOs} {deadlineAtMs : Int64} {build : Build} {resolved : ResolvedTarget}
  {destination : TargetRef} {button : MouseButton} {origin point : NativePoint} {name : String}
  {limitMs : Int64} {history : Past}

theorem DragPassed.later {before : Past}
    (passed : DragPassed build resolved destination history origin point) :
    DragPassed build resolved destination (before ++ history) origin point := by
  obtain ⟨same, first, segment, after, rfl, fenced⟩ := passed
  refine ⟨same, before ++ first, segment, after, ?_, fenced⟩
  simp only [List.append_assoc]

/-- The drag itself: its other end is resolved anew, and the call waits for that. -/
theorem drag_passed {next : Except DispatchError Unit → Prog Desktop (Except Fault Unit)}
    (run : Steps (drag os deadlineAtMs build resolved destination button).run history
      (.ask (.deed (.drag origin point name limitMs)) next)) :
    DragPassed build resolved destination history origin point := by
  obtain ⟨_, _, _, rfl, _, run⟩ := asks_later (only_refuse _) id run
  refine DragPassed.later ?_
  cases resolved with
  | point start =>
    have only := only_resolveWithBoundary os build destination deadlineAtMs
    obtain ⟨_, _, _, rfl, whole, run⟩ := asks_later (only_lift only) id run
    obtain ⟨_, resolves, same⟩ := steps_lift.mp whole
    obtain rfl := Except.ok.inj same
    obtain ⟨_, ended, _, rfl, told, run⟩ := asks_later (only_orFault _ _) id run
    obtain ⟨rfl, rfl⟩ := steps_orFault told
    cases ended with
    | point stop =>
      obtain ⟨_, _, _, rfl, _, run⟩ := asks_later (only_before deadlineAtMs) id run
      have call := only_pending (only_deed _) run
      cases call
      exact ⟨rfl, [], _, _, rfl, resolve_passed resolves⟩
    | element | semantic | none => nomatch run
  | element | semantic | none => nomatch run

theorem only_asking {op : DesktopOp} (other : NotDrag op) :
    (monadLift (ask op) : NativeM op.Answer).run.Only NotDrag := only_lift (only_ask other)

theorem dispatchNative_drag_passed {deliveryPid : Int32} {verification : VerificationPolicy}
    {next : Except DispatchError Unit → Prog Desktop (Except Fault DispatchReceipt)}
    (run : Steps (dispatchNative os deadlineAtMs build deliveryPid (.drag destination button) resolved
      verification).run history (.ask (.deed (.drag origin point name limitMs)) next)) :
    DragPassed build resolved destination history origin point := by
  have usable : (requireUsable resolved).run.Only NotDrag := by
    cases resolved with
    | element element => exact only_refuse _
    | _ => trivial
  obtain ⟨_, _, _, rfl, _, run⟩ := asks_later usable id run
  refine DragPassed.later ?_
  obtain ⟨_, _, _, rfl, _, run⟩ := asks_later (only_refuse _) id run
  refine DragPassed.later ?_
  obtain ⟨_, _, _, rfl, _, run⟩ := asks_later (only_asking (by trivial)) id run
  refine DragPassed.later ?_
  obtain ⟨_, _, _, rfl, _, run⟩ := asks_later (only_orFault _ _) id run
  refine DragPassed.later ?_
  obtain ⟨_, _, _, rfl, _, run⟩ := asks_later (only_refuse _) id run
  refine DragPassed.later ?_
  obtain ⟨_, _, _, rfl, _, run⟩ := asks_later (only_asking (by trivial)) id run
  refine DragPassed.later ?_
  obtain ⟨_, _, _, rfl, _, run⟩ := asks_later (only_refuse _) id run
  refine DragPassed.later ?_
  rcases steps_try_ask run with ⟨_, inside⟩ | ⟨_, _, _, _, _, run⟩
  · exact drag_passed inside
  · exact absurd (only_pending (only_pointerReceipt os deadlineAtMs verification) run) id

/-- Before the drag there are only the checks of every dispatch. -/
theorem dispatch_drag_passed {deliveryPid : Int32} {verification : VerificationPolicy}
    {next : Except DispatchError Unit → Prog Desktop (Except Fault DispatchReceipt)}
    (run : Steps (dispatch os deadlineAtMs build deliveryPid (.drag destination button) resolved
      verification).run history (.ask (.deed (.drag origin point name limitMs)) next)) :
    DragPassed build resolved destination history origin point := by
  obtain ⟨_, _, _, rfl, _, run⟩ := asks_later (only_before deadlineAtMs) id run
  refine DragPassed.later ?_
  obtain ⟨_, _, _, rfl, _, run⟩ := asks_later (only_asking (by trivial)) id run
  refine DragPassed.later ?_
  obtain ⟨_, _, _, rfl, _, run⟩ := asks_later (only_orFault _ _) id run
  refine DragPassed.later ?_
  -- A drag has nothing of an action without a target.
  have auxiliary : (dispatchAuxiliary os deadlineAtMs (.drag destination button)).run =
      .ret (.ok none) := by cases os <;> rfl
  have quiet : (dispatchAuxiliary os deadlineAtMs (.drag destination button)).run.Only NotDrag := by
    rw [auxiliary]
    trivial
  obtain ⟨_, _, _, rfl, done, run⟩ := asks_later quiet id run
  refine DragPassed.later ?_
  rw [auxiliary] at done
  obtain ⟨_, same⟩ := steps_ret.mp done
  cases same
  obtain ⟨_, _, _, rfl, _, run⟩ := asks_later (only_refuse _) id run
  refine DragPassed.later ?_
  cases resolved with
  | semantic ref => exact absurd (only_pending (only_dragSemantic os deadlineAtMs _ _ _ ref) run) id
  | point | element | none => exact dispatchNative_drag_passed run

/-- Only what passes the fence is resolved to a point; and a drag comes to its native call only
if both its ends have passed, the one when the target was resolved and the other on the way. -/
theorem coordinates_fenced {target : TargetRef} {resolution : Past}
    (resolves : Steps (resolveWithBoundary os build target deadlineAtMs).run resolution
      (.ret (.ok resolved))) :
    (∀ point, resolved = .point point → Passed build target point resolution) ∧
    ∀ dispatchDeadlineAtMs destination button deliveryPid verification history origin point name
      limitMs next,
      Steps (dispatch os dispatchDeadlineAtMs build deliveryPid (.drag destination button) resolved
        verification).run history (.ask (.deed (.drag origin point name limitMs)) next) →
      Passed build target origin resolution ∧ ∃ before segment after,
        history = before ++ segment ++ after ∧ Passed build destination point segment := by
  constructor
  · rintro point rfl
    exact resolve_passed resolves
  · intro dispatchDeadlineAtMs destination button deliveryPid verification history origin point
      name limitMs next run
    obtain ⟨rfl, passed⟩ := dispatch_drag_passed run
    exact ⟨resolve_passed resolves, passed⟩

end

/-! ### A drag -/

def dragScreens : Json := .arr [.obj [("name", .str "main"), ("x", .ofUInt64 0),
  ("y", .ofUInt64 0), ("width", .ofUInt64 800), ("height", .ofUInt64 600)]]

def dragGeometry : String := hexEncode (benchDigest .interactive)

def dragPoint (x y : Int64) : TargetRef := .coordinates x y "main" dragGeometry "snapshot" "content"

/-- A desktop with one screen, that was just observed. -/
def dragDesktop (op : DesktopOp) (nowMs : Int64) : op.Answer × Int64 :=
  match op with
  | .isCancelled => (false, nowMs)
  | .now => (nowMs, nowMs + 1)
  | .directories => (fun _ => true, nowMs)
  | .connect => (.ok (), nowMs)
  | .focusedTarget _ => (.error .conflict, nowMs)
  | .capabilities => (.ok ⟨["drag"], []⟩, nowMs)
  | .globalInputAllowed => (true, nowMs)
  | .listScreens => (.ok dragScreens, nowMs)
  | .screenContentHash => (.ok "content", nowMs)
  | .input _ | .status _ => (.error ⟨⟩, nowMs)
  | .actions _ => (.error ⟨⟩, nowMs)
  | .loadCoordinateObservation _ =>
    (.ok ⟨protocolVersion, "snapshot", dragGeometry, "content", 0⟩, nowMs)
  | .resolveRecordedElement .. | .macLiveActionability .. => (.error .conflict, nowMs)
  | .sleep _ => ((), nowMs)
  | .deed _ | .semantic _ => (.error .ambiguousDispatch, nowMs)
  | .copy _ => (.error .failed, nowMs)

def isDragStart : Except ProtocolError ResolvedTarget → Bool
  | .ok (.point point) => point = ⟨1, 2⟩
  | _ => false

def isDragCall : DesktopOp → Bool
  | .deed (.drag origin point _ _) => origin = ⟨1, 2⟩ && point = ⟨3, 4⟩
  | _ => false

theorem coordinates_fenced_drag : ∃ resolution segment : Past,
    Passed (benchBuild .interactive) (dragPoint 1 2) ⟨1, 2⟩ resolution ∧
      Passed (benchBuild .interactive) (dragPoint 3 4) ⟨3, 4⟩ segment := by
  have played :
      (play dragDesktop 20 (resolveWithBoundary .linux (benchBuild .interactive)
        (dragPoint 1 2) 1000).run 0).2.1.returned?.any isDragStart = true ∧
      (play dragDesktop 14 (dispatch .linux 1000 (benchBuild .interactive) 0
        (.drag (dragPoint 3 4) .left) (.point ⟨1, 2⟩) .none).run 0).2.1.asked?.any isDragCall = true := by
    decide +kernel
  obtain ⟨resolvedTo, askedFor⟩ := played
  obtain ⟨result, same, resolves⟩ := steps_returned resolvedTo
  obtain ⟨op, next, call, run⟩ := @steps_asked Desktop _ _ _ _ _ _ _ askedFor
  obtain rfl : result = .ok (.point ⟨1, 2⟩) := by
    cases result with
    | error => exact absurd same Bool.false_ne_true
    | ok resolved =>
      cases resolved with
      | point point => rw [of_decide_eq_true same]
      | _ => exact absurd same Bool.false_ne_true
  cases op with
  | deed deed =>
    cases deed with
    | drag origin point name limitMs =>
      obtain ⟨started, ended⟩ := (Bool.and_eq_true _ _).mp call
      obtain rfl := of_decide_eq_true started
      obtain rfl := of_decide_eq_true ended
      obtain ⟨_, dragged⟩ := coordinates_fenced resolves
      obtain ⟨first, _, segment, _, _, second⟩ := dragged 1000 _ _ 0 _ _ _ _ _ _ _ run
      exact ⟨_, segment, first, second⟩
    | _ => exact absurd call Bool.false_ne_true
  | _ => exact absurd call Bool.false_ne_true

end Praefectus.Native
