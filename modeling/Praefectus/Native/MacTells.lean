import Praefectus.Native.MacDeeds

/-!
# What deeds on macOS tell

A deed that fails and does not leave its effect open has done nothing, but for a scroll whose
first page was refused. A drag that has pressed the button lets it go on every path. With the
deeds in place of the calls for them, the same is so of a whole dispatch.
-/

namespace Praefectus.Mac

open Prog Native

/-! ### What a deed does -/

def isStep : AxOp → Bool
  | .performAction .. | .setAttributeValue .. | .setSelectedRange .. | .postMouseEvent .. => true
  | _ => false

def worked : Event Accessibility → Bool
  | ⟨.performAction .., success⟩ | ⟨.setAttributeValue .., success⟩
  | ⟨.setSelectedRange .., success⟩ => success
  | _ => true

def axWork : Steppers Accessibility := ⟨isStep, worked⟩

abbrev AxPast := List (Event Accessibility)

abbrev Untouched : AxPast → Prop := axWork.Progress []

def mouseEvent? : AxOp → Option (MouseEvent × CGPoint)
  | .postMouseEvent _ kind point => some (kind, point)
  | _ => none

def dragged (start finish : CGPoint) (first count : Nat) : List (MouseEvent × CGPoint) :=
  (List.range' first count).map fun step => (.leftMouseDragged, between start finish step)

/-- The events of a drag that comes so far. -/
def dragEvents (origin destination : NativePoint) (steps : Nat) : List (MouseEvent × CGPoint) :=
  let start := CGPoint.ofNative origin
  let finish := CGPoint.ofNative destination
  (.leftMouseDown, start) :: dragged start finish 1 steps ++ [(.leftMouseUp, finish)]

/-- What a deed asks for. A drag may be cut short on its way. -/
def deedPlan (steps : Nat) : DeedCall → List AxOp → Prop
  | .drag origin destination _ _, plan =>
    plan.map mouseEvent? = (dragEvents origin destination steps).map some
  | .elementSetValue _ value _, plan => ∃ element, plan = [.setAttributeValue element "AXValue" value]
  | .macSemanticScroll element name amount _, plan =>
    plan = List.replicate amount.toNat (.performAction element name)
  | .macSemanticInvoke element _, plan => plan = [.performAction element "AXPress"]
  | .macSemanticSetValue element value _, plan => plan = [.setAttributeValue element "AXValue" value]
  | .macSemanticSelectText element start length _, plan =>
    plan = [.setSelectedRange element start length]
  | .macSemanticPerformSecondaryAction element name _, plan => plan = [.performAction element name]

def IsDeedPlan (call : DeedCall) (plan : List AxOp) : Prop :=
  ∃ steps ≤ maxDragSteps, deedPlan steps call plan

/-- The actions by which a deed scrolls. -/
def DeedScrolls (element : AxElement) (name : String) : DeedCall → Prop
  | .macSemanticScroll element' name' _ _ => element' = element ∧ name' = name
  | _ => False

/-- The first scroll of an element was refused. -/
def RefusedScroll (scrolls : AxElement → String → Prop) (past : AxPast) : Prop :=
  ∃ element name, scrolls element name ∧ axWork.taken past = [⟨.performAction element name, false⟩]

/-- An error that does not leave the effect open says that nothing was done. -/
def AxTells (scrolls : AxElement → String → Prop) (error : DispatchError) (past : AxPast) : Prop :=
  error.effect ≠ .unknown → axWork.taken past = [] ∨ RefusedScroll scrolls past

section

variable {scrolls : AxElement → String → Prop}

theorem axTells_unknown {error : DispatchError} (unknown : error.effect = .unknown) (past : AxPast) :
    AxTells scrolls error past :=
  fun known => absurd unknown known

theorem axTells_untouched (error : DispatchError) {past : AxPast} (untouched : Untouched past) :
    AxTells scrolls error past :=
  fun _ => .inl (Steppers.progress_untouched untouched)

end

/-! ### Rules -/

section

open Steppers

variable {α : Type} {scrolls : AxElement → String → Prop} {Plan : List AxOp → Prop}
  {R : AxPast → Prop} {Q : α → AxPast → Prop} {done rest : List AxOp} {deadlineAtMs : Int64}

abbrev Acts (scrolls : AxElement → String → Prop) (Plan : List AxOp → Prop) (R : AxPast → Prop)
    (Q : α → AxPast → Prop) (x : AxM α) : Prop :=
  Upholds (axWork.Next Plan) (AxTells scrolls) R Q x

theorem acts_idle {p : Prog Accessibility α} (lasting : Lasting axWork.Idle R)
    (only : p.Only axWork.Idle) : Acts scrolls Plan R (fun _ => R) (monadLift p) := by
  apply upholds_mono
  · apply upholds_ran lasting only
    intro past op _ idle step
    exact absurd (idle.symm.trans step) Bool.false_ne_true
  · exact fun _ _ known => known.1

theorem acts_look {op : AxOp} (idle : axWork.Idle op) :
    Acts scrolls Plan (axWork.Progress done) (fun _ => axWork.Progress done) (monadLift (look op)) :=
  carries_look lasting_progress idle

/-- What a failure says is known before something was done. -/
theorem acts_orThrow (error : DispatchError) (success : Bool) :
    Acts scrolls Plan Untouched (fun _ past => Untouched past ∧ success = true) (orThrow error success) := by
  cases success with
  | true => exact upholds_pure fun _ untouched => ⟨untouched, rfl⟩
  | false => exact upholds_throw fun _ => axTells_untouched error

theorem acts_require {β : Type} {Q : β → AxPast → Prop} {error : DispatchError} {success : Bool}
    {x : AxM β} (rest : success = true → Acts scrolls Plan Untouched Q x) :
    Acts scrolls Plan Untouched Q (do orThrow error success; x) := by
  apply upholds_bind (acts_orThrow error success)
  exact fun _ => upholds_given rest

theorem acts_isInterrupted (lasting : Lasting axWork.Idle R) :
    Acts scrolls Plan R (fun _ => R) (isInterrupted axBoundary deadlineAtMs) := by
  apply upholds_bind (carries_look lasting rfl)
  intro cancelled
  cases cancelled with
  | true => exact upholds_pure fun _ => id
  | false =>
    apply upholds_bind (carries_look lasting rfl)
    exact fun nowMs => upholds_pure fun _ => id

theorem idle_look {op : AxOp} (idle : axWork.Idle op) : (look op).Only axWork.Idle :=
  ⟨idle, fun _ => trivial⟩

theorem acts_before : Acts scrolls Plan Untouched (fun _ => Untouched) (before deadlineAtMs) := by
  apply carries_idle lasting_progress
  · exact only_checkBeforeEffect (idle_look rfl) (idle_look rfl)
  · exact fun error _ => axTells_untouched error

theorem idle_prepare (element : AxElement) : (prepare element).Only axWork.Idle := idle_look rfl

theorem idle_actions (element : AxElement) : (actions element).Only axWork.Idle := by
  apply only_bind (idle_prepare element)
  intro ready
  cases ready with
  | true => exact idle_look rfl
  | false => trivial

theorem idle_isSettable (element : AxElement) (name : String) :
    (isSettable element name).Only axWork.Idle := by
  apply only_bind (idle_prepare element)
  intro ready
  cases ready with
  | true => exact idle_look rfl
  | false => trivial

/-- A step whose failure leaves the effect open. -/
theorem acts_step {op : AxOp} (isPlan : Plan (done ++ op :: rest)) (step : isStep op = true)
    {error : DispatchError} (unknown : error.effect = .unknown) {f : op.Answer → Bool}
    (told : ∀ answer, f answer = worked ⟨op, answer⟩) :
    Acts scrolls Plan (axWork.Progress done) (fun _ => axWork.Progress (done ++ [op]))
      (do orThrow error (f (← look op))) := by
  apply upholds_bind (carries_step isPlan step)
  intro answer
  cases succeeded : f answer with
  | true => exact upholds_pure fun _ stepped =>
      progress_stepped stepped ((told answer).symm.trans succeeded)
  | false => exact upholds_throw fun past _ => axTells_unknown unknown past

/-! ### Deeds on an element -/

/-- The deed that is the only step of its plan. -/
theorem acts_only {op : AxOp} (isPlan : Plan [op]) (step : isStep op = true)
    {error : DispatchError} (unknown : error.effect = .unknown) {f : op.Answer → Bool}
    (told : ∀ answer, f answer = worked ⟨op, answer⟩) :
    Acts scrolls Plan Untouched (fun _ => axWork.Progress [op]) (do orThrow error (f (← look op))) :=
  @acts_step scrolls Plan [] [] op isPlan step error unknown f told

theorem acts_prepared {β : Type} {Q : β → AxPast → Prop} {element : AxElement} {x : AxM β}
    (rest : Acts scrolls Plan Untouched Q x) :
    Acts scrolls Plan Untouched Q (do orThrow unavailable (← prepare element); x) := by
  apply upholds_bind (acts_idle lasting_progress (idle_prepare element))
  exact fun ready => acts_require fun _ => rest

theorem acts_performAdvertised {element : AxElement} {name : String} {missing : DispatchError}
    (isPlan : Plan [.performAction element name]) :
    Acts scrolls Plan Untouched (fun _ => axWork.Progress [.performAction element name])
      (performAdvertised deadlineAtMs element name missing) := by
  apply upholds_bind (acts_idle lasting_progress (idle_actions element))
  intro found
  apply acts_require
  intro advertised
  apply upholds_bind acts_before
  exact fun _ => acts_only isPlan rfl rfl fun _ => rfl

theorem acts_macSemanticInvoke {element : AxElement}
    (isPlan : Plan [.performAction element "AXPress"]) :
    Acts scrolls Plan Untouched (fun _ => axWork.Progress [.performAction element "AXPress"])
      (macSemanticInvoke deadlineAtMs element) := by
  apply upholds_bind acts_before
  exact fun _ => acts_prepared (acts_performAdvertised isPlan)

theorem acts_macSemanticPerformSecondaryAction {element : AxElement} {name : String}
    (isPlan : Plan [.performAction element name]) :
    Acts scrolls Plan Untouched (fun _ => axWork.Progress [.performAction element name])
      (macSemanticPerformSecondaryAction deadlineAtMs element name) := by
  apply upholds_bind acts_before
  intro _
  apply acts_prepared
  exact acts_require fun _ => acts_performAdvertised isPlan

theorem acts_macSemanticSetValue {element : AxElement} {value : String}
    (isPlan : Plan [.setAttributeValue element "AXValue" value]) :
    Acts scrolls Plan Untouched (fun _ => axWork.Progress [.setAttributeValue element "AXValue" value])
      (macSemanticSetValue deadlineAtMs element value) := by
  apply upholds_bind acts_before
  intro _
  apply acts_prepared
  apply upholds_bind (acts_idle lasting_progress (idle_isSettable element _))
  intro settable
  apply acts_require
  intro _
  apply upholds_bind acts_before
  exact fun _ => acts_only isPlan rfl rfl fun _ => rfl

theorem idle_macSelectedRange (element : AxElement) :
    (macSelectedRange element).Only axWork.Idle := by
  apply only_bind (idle_look rfl)
  intro range
  cases range <;> trivial

theorem acts_macSemanticSelectText {element : AxElement} {start length : UInt32}
    (isPlan : Plan [.setSelectedRange element start length]) :
    Acts scrolls Plan Untouched (fun _ => axWork.Progress [.setSelectedRange element start length])
      (macSemanticSelectText deadlineAtMs element start length) := by
  apply upholds_bind acts_before
  intro _
  apply acts_prepared
  apply upholds_bind (acts_idle lasting_progress (idle_isSettable element _))
  intro settable
  apply acts_require
  intro _
  apply upholds_bind acts_before
  intro _
  have selected : Acts scrolls Plan Untouched
      (fun _ => axWork.Progress [.setSelectedRange element start length])
      (macSetSelectedRange element start length) := by
    apply upholds_bind (acts_look rfl)
    intro created
    apply acts_require
    exact fun _ => acts_only isPlan rfl rfl fun _ => rfl
  apply upholds_bind selected
  intro _
  apply upholds_bind (acts_idle lasting_progress (idle_macSelectedRange element))
  intro range
  unfold orThrow
  apply upholds_ite
  · exact fun _ => upholds_pure fun _ => id
  · exact fun _ => upholds_throw fun past _ => axTells_unknown rfl past

/-- The first scroll that is refused is the only step, and a later one leaves the effect open. -/
theorem acts_scrollOnce {element : AxElement} {name : String} {index : Nat} {rest : List AxOp}
    (scroll : scrolls element name)
    (isPlan : Plan (List.replicate index (.performAction element name) ++
      .performAction element name :: rest)) :
    Acts scrolls Plan (axWork.Progress (List.replicate index (.performAction element name)))
      (fun _ => axWork.Progress (List.replicate (index + 1) (.performAction element name)))
      (scrollOnce deadlineAtMs element name index) := by
  rw [List.replicate_succ']
  have checked : Acts scrolls Plan (axWork.Progress (List.replicate index (.performAction element name)))
      (fun _ => axWork.Progress (List.replicate index (.performAction element name)))
      (checkPartialDispatch axBoundary deadlineAtMs index "scroll interrupted after partial dispatch") := by
    apply upholds_ite
    · rintro rfl
      exact acts_before
    · intro _
      apply upholds_bind (acts_isInterrupted lasting_progress)
      intro interrupted
      cases interrupted with
      | true => exact upholds_throw fun past _ => axTells_unknown rfl past
      | false => exact upholds_pure fun _ => id
  apply upholds_bind checked
  intro _
  apply upholds_bind (carries_step isPlan rfl)
  intro performed
  cases performed with
  | true => exact upholds_pure fun _ stepped => progress_stepped stepped rfl
  | false =>
    apply upholds_throw
    intro past stepped known
    -- A refusal leaves the effect open once the element has been scrolled.
    by_cases first : index = 0
    · subst first
      exact .inr ⟨element, name, scroll, stepped_first stepped⟩
    · rw [if_neg first] at known
      exact absurd rfl known

theorem acts_macSemanticScroll {element : AxElement} {name : String} {amount : UInt32}
    (scroll : scrolls element name)
    (isPlan : Plan (List.replicate amount.toNat (.performAction element name))) :
    Acts scrolls Plan Untouched
      (fun _ => axWork.Progress (List.replicate amount.toNat (.performAction element name)))
      (macSemanticScroll deadlineAtMs element name amount) := by
  have loop : Acts scrolls Plan Untouched
      (fun _ => axWork.Progress (List.replicate amount.toNat (.performAction element name)))
      ((List.range amount.toNat).forM (scrollOnce deadlineAtMs element name)) := by
    apply @upholds_range _ _ _ _ fun index =>
      axWork.Progress (List.replicate index (.performAction element name))
    intro index below
    apply acts_scrollOnce scroll
    exact @replicate_cut Accessibility _ _ below _ ▸ isPlan
  apply upholds_bind loop
  intro _
  apply upholds_bind (acts_isInterrupted lasting_progress)
  intro interrupted
  cases interrupted with
  | true => exact upholds_throw fun past _ => axTells_unknown rfl past
  | false => exact upholds_pure fun _ => id

theorem idle_matchingFrom (build : Build) (expectedHash : String) (n : Nat) (element : AxElement) :
    (matchingFrom deadlineAtMs build expectedHash n element).Only axWork.Idle := by
  induction n generalizing element with
  | zero => trivial
  | succ n ih =>
    apply only_bind (idle_look rfl)
    intro cancelled
    cases cancelled with
    | true => trivial
    | false =>
      apply only_bind (idle_look rfl)
      intro nowMs
      by_cases late : nowMs ≥ deadlineAtMs
      · simp only [late, if_true]
        trivial
      · simp only [late, if_false]
        apply only_bind (idle_look rfl)
        intro candidate
        split
        · trivial
        · apply only_bind (idle_look rfl)
          intro parent
          cases parent with
          | error e => trivial
          | ok parent => exact ih parent

theorem idle_macAxElementMatchingHash (build : Build) (point : NativePoint) (expectedHash : String) :
    (macAxElementMatchingHash deadlineAtMs build point expectedHash).Only axWork.Idle := by
  apply only_bind (idle_look rfl)
  intro found
  cases found with
  | error e => trivial
  | ok element => exact idle_matchingFrom build expectedHash 64 element

theorem acts_stoppedOr {Q : Unit → AxPast → Prop} (error : DispatchError) :
    Acts scrolls Plan Untouched Q (stoppedOr deadlineAtMs error) := by
  have thrown : ∀ {e : DispatchError}, Acts scrolls Plan Untouched Q (throw e) :=
    fun {e} => upholds_throw fun _ => axTells_untouched e
  apply upholds_bind (acts_look rfl)
  intro cancelled
  cases cancelled with
  | true => exact thrown
  | false =>
    apply upholds_bind (acts_look rfl)
    intro nowMs
    exact upholds_ite (fun _ => thrown) fun _ => thrown

theorem acts_nativeElementSetValue {os : TargetOs} {build : Build} {expected : NativeElement}
    {value : String} (isPlan : ∀ element, Plan [.setAttributeValue element "AXValue" value]) :
    Acts scrolls Plan Untouched
      (fun _ past => ∃ element, axWork.Progress [.setAttributeValue element "AXValue" value] past)
      (nativeElementSetValue deadlineAtMs os build expected value) := by
  unfold nativeElementSetValue
  split
  · exact upholds_throw fun _ => axTells_untouched _
  next bounds _ =>
    apply upholds_bind (acts_look rfl)
    intro nowMs
    apply upholds_bind (acts_idle lasting_progress (idle_macAxElementMatchingHash build _ _))
    intro found
    split
    · exact acts_stoppedOr unavailable
    next element current =>
      apply acts_require
      intro _
      apply upholds_bind (acts_idle lasting_progress (idle_isSettable element _))
      intro settable
      apply acts_require
      intro _
      apply acts_prepared
      apply upholds_bind acts_before
      intro _
      apply upholds_mono (acts_only (isPlan element) rfl rfl fun _ => rfl)
      exact fun _ _ progress => ⟨element, progress⟩
  · exact upholds_throw fun _ => axTells_untouched _

/-! ### Drags -/

/-- The steps so far were these events. -/
def Posted (events : List (MouseEvent × CGPoint)) (past : AxPast) : Prop :=
  ∃ ops, axWork.Progress ops past ∧ ops.map mouseEvent? = events.map some

/-- An answer for which an event is not posted. -/
def Blocks (kind : MouseEvent) (point : CGPoint) : Event Accessibility → Prop
  | ⟨.createSource, created⟩ => created = false
  | ⟨.createMouseEvent kind' point', created⟩ => kind' = kind ∧ point' = point ∧ created = false
  | ⟨.globalInputAllowed, allowed⟩ => allowed = false
  | _ => False

/-- The last that was asked for kept the event from being posted. -/
def Blocked (kind : MouseEvent) (point : CGPoint) (past : AxPast) : Prop :=
  ∃ earlier e, past = earlier ++ [e] ∧ Blocks kind point e

theorem lasting_posted (events : List (MouseEvent × CGPoint)) : Lasting axWork.Idle (Posted events) :=
  lasting_exists fun ops => lasting_and lasting_progress (lasting_const (ops.map mouseEvent? = _))

/-- A question that may keep an event from being posted. -/
theorem upholds_asked {E : DispatchError → AxPast → Prop} {op : AxOp} (lasting : Lasting axWork.Idle R)
    (idle : axWork.Idle op) :
    Upholds (axWork.Next Plan) E R
      (fun answer past => R past ∧ ∃ earlier, past = earlier ++ [⟨op, answer⟩])
      (monadLift (look op)) := by
  intro past known
  apply judged_ask
  · exact fun step => absurd (idle.symm.trans step) Bool.false_ne_true
  · exact fun answer => ⟨lasting past _ idle known, past, rfl⟩

variable {origin destination : NativePoint} {kind : MouseEvent} {point : CGPoint}
  {events after : List (MouseEvent × CGPoint)}

def IsDragPlan (origin destination : NativePoint) (plan : List AxOp) : Prop :=
  ∃ steps ≤ maxDragSteps, plan.map mouseEvent? = (dragEvents origin destination steps).map some

theorem refused_allowed {pid : Int32} {allowed : Bool} (refused : inputDelivery pid allowed = .refused) :
    allowed = false := by
  unfold inputDelivery at refused
  split at refused
  · contradiction
  · cases allowed with
    | true => contradiction
    | false => rfl

/-- The post of an event that comes next. -/
theorem posts_step {steps : Nat} (below : steps ≤ maxDragSteps)
    (next : dragEvents origin destination steps = events ++ (kind, point) :: after)
    {E : DispatchError → AxPast → Prop} (delivery : InputDelivery) :
    Upholds (axWork.Next (IsDragPlan origin destination)) E (Posted events)
      (fun _ => Posted (events ++ [(kind, point)]))
      (monadLift (look (.postMouseEvent delivery kind point))) := by
  apply upholds_exists
  intro ops
  apply upholds_given
  intro same
  have isPlan : IsDragPlan origin destination (ops ++ .postMouseEvent delivery kind point ::
      after.map fun e => .postMouseEvent .globalTap e.1 e.2) := by
    refine ⟨steps, below, ?_⟩
    rw [next, List.map_append, List.map_append, same, List.map_cons, List.map_cons, List.map_map]
    rfl
  apply upholds_mono (carries_step isPlan rfl)
  intro _ past stepped
  refine ⟨_, progress_stepped stepped rfl, ?_⟩
  rw [List.map_append, List.map_append, same]
  rfl

/-- An event that comes next in a drag is posted, or something keeps it from being posted. -/
theorem posts {steps : Nat} (below : steps ≤ maxDragSteps)
    (next : dragEvents origin destination steps = events ++ (kind, point) :: after) :
    Upholds (axWork.Next (IsDragPlan origin destination))
      (fun _ past => Posted events past ∧ Blocked kind point past) (Posted events)
      (fun _ => Posted (events ++ [(kind, point)])) (post kind point) := by
  apply upholds_bind (upholds_asked (lasting_posted events) rfl)
  intro created
  apply upholds_bind (Q := fun _ => Posted events)
  · cases created with
    | true => exact upholds_pure fun _ known => known.1
    | false =>
      apply upholds_throw
      rintro past ⟨posted, earlier, rfl⟩
      exact ⟨posted, earlier, _, rfl, rfl⟩
  intro _
  apply upholds_bind (upholds_asked (lasting_posted events) rfl)
  intro created
  apply upholds_bind (Q := fun _ => Posted events)
  · cases created with
    | true => exact upholds_pure fun _ known => known.1
    | false =>
      apply upholds_throw
      rintro past ⟨posted, earlier, rfl⟩
      exact ⟨posted, earlier, _, rfl, rfl, rfl, rfl⟩
  intro _
  apply upholds_bind (carries_look (lasting_posted events) rfl)
  intro pid
  apply upholds_bind (upholds_asked (lasting_posted events) rfl)
  intro allowed
  cases delivered : inputDelivery pid allowed with
  | refused =>
    obtain rfl := refused_allowed delivered
    apply upholds_throw
    rintro past ⟨posted, earlier, rfl⟩
    exact ⟨posted, earlier, _, rfl, rfl⟩
  | perProcess pid => exact upholds_of (Posted events) (fun _ => And.left) (posts_step below next _)
  | globalTap => exact upholds_of (Posted events) (fun _ => And.left) (posts_step below next _)

/-- The events up to a step on the way. -/
def pressed (origin destination : NativePoint) (steps : Nat) : List (MouseEvent × CGPoint) :=
  (.leftMouseDown, CGPoint.ofNative origin) ::
    dragged (CGPoint.ofNative origin) (CGPoint.ofNative destination) 1 steps

theorem dragEvents_eq (steps : Nat) : dragEvents origin destination steps =
    pressed origin destination steps ++ [(.leftMouseUp, CGPoint.ofNative destination)] := rfl

theorem pressed_succ (steps : Nat) : pressed origin destination (steps + 1) =
    pressed origin destination steps ++ [(.leftMouseDragged,
      between (CGPoint.ofNative origin) (CGPoint.ofNative destination) (steps + 1))] := by
  simp [pressed, dragged, List.range'_1_concat, Nat.add_comm]

/-- The button is down, at some step of the way. -/
def OnWay (origin destination : NativePoint) (way : Way) (past : AxPast) : Prop :=
  ∃ steps ≤ maxDragSteps, Posted (pressed origin destination steps) past ∧
    (way = .done → steps = maxDragSteps)

theorem acts_dragAlong {steps left : Nat} (total : steps + left = maxDragSteps)
    {E : DispatchError → AxPast → Prop} :
    Upholds (axWork.Next (IsDragPlan origin destination)) E (Posted (pressed origin destination steps))
      (OnWay origin destination)
      (monadLift (dragAlong deadlineAtMs (CGPoint.ofNative origin) (CGPoint.ofNative destination)
        (List.range' (steps + 1) left))) := by
  have stops (way : Way) (unfinished : way ≠ .done) : ∀ past, Posted (pressed origin destination steps) past →
      OnWay origin destination way past :=
    fun _ posted => ⟨steps, by omega, posted, fun done => absurd done unfinished⟩
  induction left generalizing steps with
  | zero => exact upholds_pure fun _ posted => ⟨steps, by omega, posted, fun _ => total⟩
  | succ left ih =>
    rw [List.range'_succ]
    apply upholds_lift_bind (carries_look (lasting_posted _) rfl)
    intro cancelled
    cases cancelled with
    | true => exact upholds_pure (stops _ nofun)
    | false =>
      apply upholds_lift_bind (carries_look (lasting_posted _) rfl)
      intro nowMs
      by_cases late : nowMs ≥ deadlineAtMs
      · simp only [late, if_true]
        exact upholds_pure (stops _ nofun)
      · simp only [late, if_false]
        have next : dragEvents origin destination (steps + 1) = pressed origin destination steps ++
            (.leftMouseDragged, between (CGPoint.ofNative origin) (CGPoint.ofNative destination)
              (steps + 1)) :: [(.leftMouseUp, CGPoint.ofNative destination)] := by
          rw [dragEvents_eq, pressed_succ, List.append_assoc]
          rfl
        apply upholds_lift_bind (upholds_attempt (posts (by omega) next))
        intro posted
        cases posted with
        | error error => exact upholds_pure fun past known => stops .failed nofun past known.1
        | ok _ =>
          rw [← pressed_succ]
          apply upholds_lift_bind (carries_look (lasting_posted _) rfl)
          intro _
          exact ih (by omega) fun _ unfinished past posted =>
            ⟨steps + 1, by omega, posted, fun done => absurd done unfinished⟩

/-- The button was let go, or the last that was asked for kept it from being let go. -/
def LetGo (origin destination : NativePoint) (past : AxPast) : Prop :=
  ∃ steps ≤ maxDragSteps, Posted (dragEvents origin destination steps) past ∨
    Posted (pressed origin destination steps) past ∧
      Blocked .leftMouseUp (CGPoint.ofNative destination) past

/-- How a drag fails. -/
def DragTells (origin destination : NativePoint) (error : DispatchError) (past : AxPast) : Prop :=
  Untouched past ∨ error.effect = .unknown ∧ LetGo origin destination past

theorem posted_nil {past : AxPast} : Posted [] past ↔ Untouched past := by
  constructor
  · rintro ⟨ops, progress, same⟩
    obtain rfl := List.map_eq_nil_iff.mp same
    exact progress
  · exact fun untouched => ⟨[], untouched, rfl⟩

theorem drag_refused {β : Type} {Q : β → AxPast → Prop} (error : DispatchError) :
    Upholds (axWork.Next Plan) (DragTells origin destination) Untouched Q (throw error : AxM β) :=
  upholds_throw fun _ => .inl

theorem drag_require {β : Type} {Q : β → AxPast → Prop} {error : DispatchError} {success : Bool}
    {x : AxM β}
    (rest : Upholds (axWork.Next Plan) (DragTells origin destination) Untouched Q x) :
    Upholds (axWork.Next Plan) (DragTells origin destination) Untouched Q
      (do orThrow error success; x) := by
  apply upholds_bind (Q := fun _ => Untouched)
  · cases success with
    | true => exact upholds_pure fun _ => id
    | false => exact drag_refused error
  · exact fun _ => rest

/-- The end of a drag, however its way ended. -/
theorem acts_release (way : Way) :
    Upholds (axWork.Next (IsDragPlan origin destination)) (DragTells origin destination)
      (OnWay origin destination way) (fun _ => Posted (dragEvents origin destination maxDragSteps))
      (do
        let released ← (monadLift (post .leftMouseUp (CGPoint.ofNative destination)).run :
          AxM (Except DispatchError Unit))
        if way = .failed ∨ succeeded released = false then throw dragUnknown
        else if way = .interrupted then throw (.ambiguous "drag interrupted after partial dispatch")
        else pure ()) := by
  apply upholds_exists
  intro steps
  apply upholds_of
    (fun past => Posted (pressed origin destination steps) past ∧
      steps ≤ maxDragSteps ∧ (way = .done → steps = maxDragSteps))
    fun _ known => ⟨known.2.1, known.1, known.2.2⟩
  apply upholds_given
  rintro ⟨below, whole⟩
  apply upholds_bind (upholds_attempt (posts below (dragEvents_eq steps)))
  intro released
  cases released with
  | error error =>
    rw [if_pos (.inr rfl)]
    exact upholds_throw fun past known => .inr ⟨rfl, steps, below, .inr known⟩
  | ok _ =>
    have letGo : ∀ past, Posted (dragEvents origin destination steps) past →
        LetGo origin destination past := fun past posted => ⟨steps, below, .inl posted⟩
    rw [← dragEvents_eq]
    apply upholds_ite
    · exact fun _ => upholds_throw fun past posted => .inr ⟨rfl, letGo past posted⟩
    · intro unbroken
      apply upholds_ite
      · exact fun _ => upholds_throw fun past posted => .inr ⟨rfl, letGo past posted⟩
      · intro uninterrupted
        have done : way = .done := by
          cases way with
          | done => rfl
          | interrupted => exact absurd rfl uninterrupted
          | failed => exact absurd (.inl rfl) unbroken
        rw [whole done]
        exact upholds_pure fun _ => id

/-- A drag fails before it has posted an event, or after it let go of the button. -/
theorem acts_nativeDrag {os : TargetOs} {button : String} :
    Upholds (axWork.Next (IsDragPlan origin destination)) (DragTells origin destination) Untouched
      (fun _ => Posted (dragEvents origin destination maxDragSteps))
      (nativeDrag deadlineAtMs os origin destination button) := by
  cases os with
  | macos =>
    apply drag_require
    apply upholds_bind (carries_look lasting_progress rfl)
    intro permitted
    apply drag_require
    apply upholds_bind (Q := fun _ => Untouched)
    · apply upholds_bind (carries_look lasting_progress rfl)
      intro cancelled
      cases cancelled with
      | true => exact upholds_pure fun _ => id
      | false =>
        apply upholds_bind (carries_look lasting_progress rfl)
        exact fun _ => upholds_pure fun _ => id
    intro interrupted
    cases interrupted with
    | true => exact drag_refused _
    | false =>
      apply upholds_of (Posted []) fun _ => posted_nil.mpr
      have first : dragEvents origin destination 0 = [] ++ (.leftMouseDown, CGPoint.ofNative origin) ::
          [(.leftMouseUp, CGPoint.ofNative destination)] := rfl
      apply upholds_bind (upholds_fails (posts (Nat.zero_le _) first) ?_)
      · intro _
        apply upholds_bind (@acts_dragAlong _ _ _ 0 maxDragSteps (Nat.zero_add _) _)
        exact acts_release
      · exact fun error past known => .inl (posted_nil.mp known.1)
  | _ => exact drag_refused _

/-! ### Every deed -/

theorem isDeedPlan {call : DeedCall} {plan : List AxOp} (planned : deedPlan 0 call plan) :
    IsDeedPlan call plan :=
  ⟨0, Nat.zero_le _, planned⟩

/-- All that a deed asks for was done. -/
def Done (call : DeedCall) (past : AxPast) : Prop :=
  ∃ plan, deedPlan maxDragSteps call plan ∧ axWork.Progress plan past

theorem acts_done {call : DeedCall} {plan : List AxOp} {x : AxM Unit}
    (planned : deedPlan maxDragSteps call plan)
    (acts : Acts scrolls Plan Untouched (fun _ => axWork.Progress plan) x) :
    Acts scrolls Plan Untouched (fun _ => Done call) x :=
  upholds_mono acts fun _ _ progress => ⟨plan, planned, progress⟩

theorem axTells_drag {error : DispatchError} {past : AxPast}
    (tells : DragTells origin destination error past) : AxTells scrolls error past := by
  rcases tells with untouched | ⟨unknown, _⟩
  · exact axTells_untouched error untouched
  · exact axTells_unknown unknown past

/-- A deed carries out its plan, and what its error says is so. -/
theorem acts_perform (os : TargetOs) (build : Build) (call : DeedCall) :
    Acts (DeedScrolls · · call) (IsDeedPlan call) Untouched (fun _ => Done call)
      (perform os build call) := by
  cases call with
  | drag origin destination button deadlineAtMs =>
    apply upholds_mono (upholds_fails acts_nativeDrag fun _ _ => axTells_drag)
    rintro _ past ⟨plan, progress, same⟩
    exact ⟨plan, same, progress⟩
  | elementSetValue expected value deadlineAtMs =>
    have planned (element : AxElement) : IsDeedPlan (.elementSetValue expected value deadlineAtMs)
        [.setAttributeValue element "AXValue" value] := isDeedPlan ⟨element, rfl⟩
    apply upholds_mono (acts_nativeElementSetValue planned)
    rintro _ past ⟨element, progress⟩
    exact ⟨_, ⟨element, rfl⟩, progress⟩
  | macSemanticScroll element name amount deadlineAtMs =>
    exact acts_done rfl (acts_macSemanticScroll ⟨rfl, rfl⟩ (isDeedPlan rfl))
  | macSemanticInvoke element deadlineAtMs =>
    exact acts_done rfl (acts_macSemanticInvoke (isDeedPlan rfl))
  | macSemanticSetValue element value deadlineAtMs =>
    exact acts_done rfl (acts_macSemanticSetValue (isDeedPlan rfl))
  | macSemanticSelectText element start length deadlineAtMs =>
    exact acts_done rfl (acts_macSemanticSelectText (isDeedPlan rfl))
  | macSemanticPerformSecondaryAction element name deadlineAtMs =>
    exact acts_done rfl (acts_macSemanticPerformSecondaryAction (isDeedPlan rfl))

/-! ### A drag and a press -/

/-- A Mac that does what it is asked. -/
def willingMac : (op : AxOp) → Accessibility.Ans op
  | .isCancelled => false
  | .now => (0 : Int64)
  | .copyActionNames _ => .ok ["AXPress"]
  | .elementAt _ | .parent _ | .nativeElement .. => .error ⟨⟩
  | .copySelectedRange _ => none
  | .deliveryPid => (.ofNat 7 : Int32)
  | .sleep _ | .postMouseEvent .. => ()
  | .setMessagingTimeout _ | .isAttributeSettable .. | .createRange .. | .accessibilityPermission
  | .createSource | .createMouseEvent .. | .globalInputAllowed | .performAction ..
  | .setAttributeValue .. | .setSelectedRange .. => true

def shortDrag : AxM Unit := nativeDrag 1000 .macos ⟨0, 0⟩ ⟨24, 48⟩ "left"

theorem shortDrag_run : ∃ past, Steps shortDrag.run past (.ret (.ok ())) := by
  have told (op : AxOp) : (⟨op, willingMac op⟩ : Event Accessibility).ans = willingMac op := rfl
  obtain ⟨past, _, run⟩ := @steps_answered Accessibility _ willingMac
    (fun e => e.ans = willingMac e.op) told shortDrag.run
  have result : shortDrag.run.answered willingMac = .ok () := by decide +kernel
  exact ⟨past, result ▸ run⟩

/-! ### Drags that were begun -/

/-- **Letting go**: a completed drag has posted nothing, or it has let go of the button after the
way it made, or the last it asked for kept it from doing so. It succeeds only after the whole
way. -/
theorem drag_lets_go {os : TargetOs} {button : String} {past : AxPast}
    {result : Except DispatchError Unit}
    (run : Steps (nativeDrag deadlineAtMs os origin destination button).run past (.ret result)) :
    (result = .ok () → (axWork.taken past).map (mouseEvent? ·.op) =
      (dragEvents origin destination maxDragSteps).map some) ∧
    ∀ error, result = .error error → axWork.taken past = [] ∨ error.effect = .unknown ∧
      ∃ steps ≤ maxDragSteps,
        (axWork.taken past).map (mouseEvent? ·.op) = (dragEvents origin destination steps).map some ∨
        (axWork.taken past).map (mouseEvent? ·.op) = (pressed origin destination steps).map some ∧
          Blocked .leftMouseUp (CGPoint.ofNative destination) past := by
  have events {events : List (MouseEvent × CGPoint)} (posted : Posted events past) :
      (axWork.taken past).map (mouseEvent? ·.op) = events.map some := by
    obtain ⟨ops, progress, same⟩ := posted
    rw [← same, ← progress.same, List.map_map]
    rfl
  have verdict := upholds_run acts_nativeDrag progress_nil run
  constructor
  · rintro rfl
    exact events verdict
  · rintro error rfl
    rcases verdict with untouched | ⟨unknown, steps, below, letGo⟩
    · exact .inl (progress_untouched untouched)
    · refine .inr ⟨unknown, steps, below, ?_⟩
      rcases letGo with posted | ⟨posted, blocked⟩
      · exact .inl (events posted)
      · exact .inr ⟨events posted, blocked⟩

theorem drag_lets_go_short : ∃ past, Steps shortDrag.run past (.ret (.ok ())) ∧
    (axWork.taken past).map (mouseEvent? ·.op) = (dragEvents ⟨0, 0⟩ ⟨24, 48⟩ maxDragSteps).map some := by
  obtain ⟨past, run⟩ := shortDrag_run
  exact ⟨past, run, (drag_lets_go run).1 rfl⟩

end

/-! ### Dispatches with their deeds -/

abbrev MacDesktop : Interface where
  Op := DesktopOp ⊕ AxOp
  Ans := Sum.elim DesktopOp.Answer AxOp.Answer

/-- The questions of a dispatch, with each deed done. -/
def answers (os : TargetOs) (build : Build) : (op : DesktopOp) → Prog MacDesktop op.Answer
  | .deed call => (perform os build call).run.rename Sum.inr fun _ answer => answer
  | op => .ask (.inl op) .ret

def dispatch (os : TargetOs) (deadlineAtMs : Int64) (build : Build) (deliveryPid : Int32)
    (action : Action) (target : ResolvedTarget) (verification : VerificationPolicy) :
    Prog MacDesktop (Except Fault DispatchReceipt) :=
  (Native.dispatch os deadlineAtMs build deliveryPid action target verification).run.handle
    (answers os build)

def isDeepStep : DesktopOp ⊕ AxOp → Bool
  | .inl op => Native.isStep op
  | .inr op => isStep op

def deepWorked : Event MacDesktop → Bool
  | ⟨.inl op, answer⟩ => Native.worked ⟨op, answer⟩
  | ⟨.inr op, answer⟩ => worked ⟨op, answer⟩

def deepWork : Steppers MacDesktop := ⟨isDeepStep, deepWorked⟩

/-- The action by which the element is to be scrolled was refused, or a semantic call failed with
the error. -/
def DeeplyRefused (action : Action) (error : DispatchError) : Event MacDesktop → Prop
  | ⟨.inl (.semantic _), .error e⟩ => e = error
  | ⟨.inr (.performAction _ name), performed⟩ => performed = false ∧
    ∃ direction amount, action = .scroll direction amount ∧ macScrollActionName direction = some name
  | _ => False

section

variable {os : TargetOs} {build : Build} {call : DeedCall}

def below (past : AxPast) : List (Event MacDesktop) := past.map fun e => ⟨.inr e.op, e.ans⟩

theorem taken_below (past : AxPast) : deepWork.taken (below past) = below (axWork.taken past) := by
  unfold below Steppers.taken
  rw [List.filter_map]
  rfl

/-- The piece of a deed is a history of the deed. -/
theorem deed_steps {piece : List (Event MacDesktop)} {result : Except DispatchError Unit}
    (run : Steps (answers os build (.deed call)) piece (.ret result)) :
    ∃ past, Steps (perform os build call).run past (.ret result) ∧ piece = below past := by
  obtain ⟨past, above, each⟩ := steps_rename _ run
  refine ⟨past, above, ?_⟩
  clear above run
  induction each with
  | nil => rfl
  | cons first _ ih =>
    obtain ⟨answer, rfl, told⟩ := first
    subst told
    rw [ih]
    rfl

/-- Every other question is asked as it is. -/
theorem other_steps {op : DesktopOp} {answer : op.Answer} {piece : List (Event MacDesktop)}
    (other : ∀ call, op ≠ .deed call) (run : Steps (answers os build op) piece (.ret answer)) :
    piece = [⟨.inl op, answer⟩] := by
  have asked : answers os build op = .ask (.inl op) .ret := by
    cases op with
    | deed call => exact absurd rfl (other call)
    | _ => rfl
  rw [asked] at run
  cases run with
  | step answer' run =>
    obtain ⟨rfl, same⟩ := steps_ret.mp run
    rw [same]

theorem idle_answers {op : DesktopOp} (idle : work.Idle op) :
    (answers os build op).Only deepWork.Idle := by
  cases op with
  | deed call => exact absurd idle.symm Bool.false_ne_true
  | _ => exact ⟨idle, fun _ => trivial⟩

/-- A step that worked above did all its work below. -/
theorem worked_piece (e : Event Desktop) (piece : List (Event MacDesktop))
    (step : work.isStep e.op = true) (done : work.worked e = true)
    (answered : Steps (answers os build e.op) piece (.ret e.ans)) :
    ∀ e' ∈ deepWork.taken piece, deepWork.worked e' = true := by
  obtain ⟨op, answer⟩ := e
  by_cases isDeed : ∃ call, op = .deed call
  · obtain ⟨call, rfl⟩ := isDeed
    obtain ⟨past, run, rfl⟩ := deed_steps answered
    cases answer with
    | error error => exact absurd done Bool.false_ne_true
    | ok _ =>
      obtain ⟨plan, _, progress⟩ := upholds_run (acts_perform os build call) Steppers.progress_nil run
      rw [taken_below]
      intro e' member
      obtain ⟨e, taken, rfl⟩ := List.mem_map.mp member
      exact progress.worked e taken
  · have same := other_steps (fun call same => isDeed ⟨call, same⟩) answered
    subst same
    intro e' member
    obtain rfl := List.mem_singleton.mp (List.mem_filter.mp member).1
    exact done

theorem keyboardPlan_input {action : Action} {op : DesktopOp} (member : op ∈ keyboardPlan action) :
    ∃ call, op = .input call := by
  cases action with
  | press => exact ⟨_, (List.mem_replicate.mp member).2⟩
  | scroll => exact ⟨_, (List.mem_replicate.mp member).2⟩
  | paste => exact ⟨_, List.mem_singleton.mp member⟩
  | hotkey => exact ⟨_, List.mem_singleton.mp member⟩
  | typeText text clear pressReturn delayMs =>
    rcases List.mem_append.mp member with typed | last
    · rcases List.mem_append.mp typed with first | piece
      · cases clear with
        | true => exact ⟨_, List.mem_singleton.mp first⟩
        | false => contradiction
      · obtain ⟨text, _, rfl⟩ := List.mem_map.mp piece
        exact ⟨_, rfl⟩
    · cases pressReturn with
      | true => exact ⟨_, List.mem_singleton.mp last⟩
      | false => contradiction
  | _ => contradiction

/-- An element is scrolled by its actions only when the action is to scroll. -/
theorem plan_scrolls {os : TargetOs} {deadlineAtMs deadlineAtMs' : Int64} {action : Action}
    {target : ResolvedTarget} {element : AxElement} {name : String} {amount : UInt32}
    {rest : List DesktopOp}
    (isPlan : IsPlan os deadlineAtMs action target
      (.deed (.macSemanticScroll element name amount deadlineAtMs') :: rest)) :
    ∃ direction amount, action = .scroll direction amount ∧
      macScrollActionName direction = some name := by
  have typed (same : .deed (.macSemanticScroll element name amount deadlineAtMs') :: rest =
      keyboardPlan action) : False := by
    obtain ⟨call, other⟩ := keyboardPlan_input (same ▸ List.mem_cons_self)
    cases other
  unfold IsPlan at isPlan
  split at isPlan
  next op _ asked =>
    -- No auxiliary call is a scroll.
    obtain ⟨rfl, _⟩ := List.cons.inj isPlan
    cases os with
    | macos =>
      cases action with
      | application operation => cases operation <;> cases asked
      | _ => cases asked
    | _ => cases asked
  next point _ =>
    cases action with
    | drag destination => cases destination <;> cases isPlan
    | click => cases (List.mem_replicate.mp (isPlan ▸ List.mem_cons_self)).2
    | move => cases isPlan
    | _ => exact (typed isPlan).elim
  next element _ =>
    cases action with
    | setValue => cases isPlan
    | _ => exact (typed isPlan).elim
  next target _ =>
    rcases isPlan with ⟨op, step, same⟩ | ⟨_, same⟩
    · obtain ⟨rfl, _⟩ := List.cons.inj same
      cases os with
      | macos =>
        obtain ⟨element', call, called, same⟩ := step
        cases same
        cases action with
        | scroll direction amount =>
          obtain ⟨name', named, same⟩ := Option.map_eq_some_iff.mp called
          cases same
          exact ⟨direction, _, rfl, named⟩
        | _ => cases called
      | other => exact step.elim
      | _ =>
        obtain ⟨call, _, same⟩ := step
        cases same
    · exact (typed same).elim
  next => exact isPlan.elim

/-- The only step of a dispatch is the first of a plan. -/
theorem only_planned {os : TargetOs} {deadlineAtMs : Int64} {build : Build} {deliveryPid : Int32}
    {action : Action} {target : ResolvedTarget} {verification : VerificationPolicy}
    {events : Past} {e : Event Desktop} {p : Prog Desktop (Except Fault DispatchReceipt)}
    (run : Steps (Native.dispatch os deadlineAtMs build deliveryPid action target verification).run
      events p) (only : work.taken events = [e]) :
    ∃ rest, IsPlan os deadlineAtMs action target (e.op :: rest) := by
  have member : e ∈ work.taken events := only ▸ List.mem_cons_self
  obtain ⟨asked, step⟩ := List.mem_filter.mp member
  obtain ⟨before, after, rfl⟩ := List.append_of_mem asked
  have first : work.taken before = [] := by
    have alone := congrArg List.length only
    have taken : work.taken (e :: after) = e :: work.taken after := List.filter_cons_of_pos step
    rw [Steppers.taken_append, List.length_append, taken, List.length_cons] at alone
    exact List.length_eq_zero_iff.mp (by simp at alone; omega)
  obtain ⟨done, rest, progress, isPlan⟩ :=
    upholds_asks carries_dispatch Steppers.progress_nil run step
  obtain rfl : [] = done := by
    rw [← progress.same, first]
    rfl
  exact ⟨rest, isPlan⟩

/-! ### A button that is pressed, and a scroll that is refused -/

def pressable : Actionability := ⟨true, true, true, true, true, true, true⟩

def button : NativeElement where
  backend := "praefectus-macos-ax"
  id := "button"
  app := "app"
  processId := none
  window := none
  role := "AXButton"
  label := none
  title := none
  bounds := none
  state := Bench.observation.state
  enabled := some true

/-- A Mac that finds the element of that target, which advertises to press and to scroll. -/
def pressableMac (performs : Bool) : (op : DesktopOp ⊕ AxOp) → MacDesktop.Ans op
  | .inl (.resolveRecordedElement ..) => .ok (⟨0⟩, button, pressable)
  | .inl (.macLiveActionability ..) => .ok pressable
  | .inl (.actions _) => .ok ["AXPress", "AXScrollDownByPage"]
  | .inl op => (focusedDesktop op 0).1
  | .inr (.performAction ..) => performs
  | .inr op => willingMac op

def pressButton : Prog MacDesktop (Except Fault DispatchReceipt) :=
  dispatch .macos 1000 (benchBuild .interactive) 0 .invoke (.semantic benchTarget) .none

theorem pressButton_run :
    ∃ past, Steps pressButton past (.ret (.ok ⟨"praefectus-macos-ax", []⟩)) := by
  have told (op : DesktopOp ⊕ AxOp) :
      (⟨op, pressableMac true op⟩ : Event MacDesktop).ans = pressableMac true op := rfl
  obtain ⟨past, _, run⟩ := @steps_answered MacDesktop _ (pressableMac true)
    (fun e => e.ans = pressableMac true e.op) told pressButton
  have result : pressButton.answered (pressableMac true) = .ok ⟨"praefectus-macos-ax", []⟩ := by
    decide +kernel
  exact ⟨past, result ▸ run⟩

def scrollRefused : DispatchError := .noEffect "semantic scroll is unavailable"

def scrollTwice : Prog MacDesktop (Except Fault DispatchReceipt) :=
  dispatch .macos 1000 (benchBuild .interactive) 0 (.scroll .down 2) (.semantic benchTarget) .none

def scrollHistory : List (Event MacDesktop) × Prog MacDesktop (Except Fault DispatchReceipt) × Unit :=
  Prog.play (fun op _ => (pressableMac false op, ())) 60 scrollTwice ()

def isRefusedScroll (result : Except Fault DispatchReceipt) : Bool :=
  result = .error (.error scrollRefused)

theorem scrollTwice_run : (deepWork.taken scrollHistory.1).length = 1 ∧
    Steps scrollTwice scrollHistory.1 (.ret (.error (.error scrollRefused))) := by
  have told : (deepWork.taken scrollHistory.1).length = 1 ∧
      scrollHistory.2.1.returned?.any isRefusedScroll = true := by decide +kernel
  obtain ⟨result, refused, run⟩ := steps_returned told.2
  obtain rfl := of_decide_eq_true refused
  exact ⟨told.1, run⟩

/-! ### Every dispatch, with its deeds -/

variable {deadlineAtMs : Int64} {action : Action} {target : ResolvedTarget}
  {verification : VerificationPolicy} {deliveryPid : Int32} {past : List (Event MacDesktop)}

/-- **What is said of the effect, to the bottom**: of a dispatch whose deeds are done one by one,
the same is so. It succeeds only if everything it did has worked. If its error does not leave the
effect open, it has done nothing, or all it did was a first scroll that was refused, when it
was to scroll, or a semantic call that failed with that error. -/
theorem deep_dispatch_tells {result : Except Fault DispatchReceipt}
    (run : Steps (dispatch os deadlineAtMs build deliveryPid action target verification) past
      (.ret result)) :
    (∀ receipt, result = .ok receipt → ∀ e ∈ deepWork.taken past, deepWork.worked e = true) ∧
    ∀ error, result = .error (.error error) → error.effect ≠ .unknown →
      deepWork.taken past = [] ∨ ∃ e, deepWork.taken past = [e] ∧ DeeplyRefused action error e := by
  obtain ⟨events, above, refined⟩ := steps_handle.mp run
  have verdict := upholds_run carries_dispatch Steppers.progress_nil above
  constructor
  · rintro receipt rfl
    obtain ⟨plan, _, _, progress⟩ := verdict
    exact Steppers.worked_refined (fun _ => idle_answers) worked_piece refined progress.worked
  · rintro error rfl known
    rcases verdict error rfl known with none | ⟨e, only, refused⟩
    · exact .inl (Steppers.taken_refined_nil (fun _ => idle_answers) refined none)
    · obtain ⟨piece, answered, same⟩ :=
        Steppers.taken_refined_only (fun _ => idle_answers) refined only
      rw [same]
      obtain ⟨op, answer⟩ := e
      cases op with
      | deed call =>
        cases answer with
        | ok _ => exact refused.elim
        | error e =>
          obtain rfl : e = error := refused
          obtain ⟨past, run, rfl⟩ := deed_steps answered
          rw [taken_below]
          rcases upholds_run (acts_perform os build call) Steppers.progress_nil run known with
            none | ⟨element, name, scrolls, scrolled⟩
          · exact .inl (none ▸ rfl)
          · refine .inr ⟨⟨.inr (.performAction element name), false⟩, scrolled ▸ rfl, rfl, ?_⟩
            cases call with
            | macSemanticScroll =>
              obtain ⟨rfl, rfl⟩ := scrolls
              obtain ⟨rest, isPlan⟩ := only_planned above only
              exact plan_scrolls isPlan
            | _ => exact scrolls.elim
      | semantic call =>
        cases answer with
        | ok _ => exact refused.elim
        | error e =>
          have alone := other_steps (fun _ other => DesktopOp.noConfusion other) answered
          subst alone
          exact .inr ⟨_, Steppers.taken_step rfl, refused⟩
      | _ => exact refused.elim

/-- A button is pressed, and a scroll by two pages is refused at the first. -/
theorem deep_dispatch_tells_press : ∃ past past',
    Steps pressButton past (.ret (.ok ⟨"praefectus-macos-ax", []⟩)) ∧
    (∀ e ∈ deepWork.taken past, deepWork.worked e = true) ∧
    Steps scrollTwice past' (.ret (.error (.error scrollRefused))) ∧
    ∃ e, deepWork.taken past' = [e] ∧ DeeplyRefused (.scroll .down 2) scrollRefused e := by
  obtain ⟨past, pressed⟩ := pressButton_run
  obtain ⟨one, refused⟩ := scrollTwice_run
  refine ⟨past, _, pressed, (deep_dispatch_tells pressed).1 _ rfl, refused, ?_⟩
  rcases (deep_dispatch_tells refused).2 _ rfl nofun with none | only
  · simp [none] at one
  · exact only

end

end Praefectus.Mac
