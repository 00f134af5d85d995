import Praefectus.Native.Coordinates
import Praefectus.Program.Planned

/-!
# Plans of a dispatch

A dispatch calls the backend to type, to press, to click or to do one deed, and how often it
calls and with what is settled by its action and its target. It makes these calls in order, each
after the ones before it have succeeded, and it succeeds if all of them were made. If it fails it
has made none, or only one that says itself that it did nothing, or it says that it does not know.
-/

namespace Praefectus.Native

open Prog Steppers

/-! ### Calls that do something -/

def isStep : DesktopOp → Bool
  | .input _ | .deed _ | .semantic _ | .status _ | .copy _ => true
  | _ => false

def worked : Event Desktop → Bool
  | ⟨.input _, .ok _⟩ | ⟨.deed _, .ok _⟩ | ⟨.semantic _, .ok _⟩ => true
  | ⟨.status _, .ok success⟩ | ⟨.copy _, .ok success⟩ => success
  | _ => false

def work : Steppers Desktop := ⟨isStep, worked⟩

/-- A call that tells itself what came of it has failed with the error. -/
def Refused (error : DispatchError) : Event Desktop → Prop
  | ⟨.deed _, .error e⟩ | ⟨.semantic _, .error e⟩ => e = error
  | _ => False

/-- An error that does not leave the effect open is the error of the only call, or there was
none. -/
def Tells (fault : Fault) (past : Past) : Prop :=
  ∀ error, fault = .error error → error.effect ≠ .unknown →
    work.taken past = [] ∨ ∃ e, work.taken past = [e] ∧ Refused error e

abbrev Untouched : Past → Prop := work.Progress []

theorem tells_unknown {error : DispatchError} (unknown : error.effect = .unknown)
    (past : Past) : Tells (.error error) past := by
  rintro _ ⟨⟩ known
  exact absurd unknown known

theorem tells_untouched {past : Past} (fault : Fault) (untouched : Untouched past) :
    Tells fault past :=
  fun _ _ _ => .inl (progress_untouched untouched)

/-! ### Plans -/

def typeOp (text : String) (clear pressReturn : Bool) (delayMs : Option UInt64) : DesktopOp :=
  .input (.typeText text clear pressReturn delayMs)

/-- The pieces of a text, behind the one in hand. -/
def pieces (size : Nat) : String → List Char → List String
  | chunk, [] => if chunk = "" then [] else [chunk]
  | chunk, character :: rest =>
    if (chunk.push character).length = size then chunk.push character :: pieces size "" rest
    else pieces size (chunk.push character) rest

def typingEnd (pressReturn : Bool) : List DesktopOp :=
  if pressReturn then [typeOp "" false true none] else []

def typingPlan (text : String) (clear pressReturn : Bool) (delayMs : Option UInt64) :
    List DesktopOp :=
  (if clear then [typeOp "" true false none] else []) ++
    (pieces (chunkSize delayMs) "" text.toList).map (typeOp · false false delayMs) ++
    typingEnd pressReturn

def keyboardPlan : Action → List DesktopOp
  | .press key count _ => List.replicate count.toNat (.input (.press key 1 none))
  | .paste text => [.input (.paste text)]
  | .hotkey keys => [.input (.hotkey keys)]
  | .scroll direction amount => List.replicate amount.toNat (.input (.scroll direction 1))
  | .typeText text clear pressReturn delayMs => typingPlan text clear pressReturn delayMs
  | _ => []

variable (os : TargetOs) (deadlineAtMs : Int64)

def pointerPlan (point : NativePoint) : Action → List DesktopOp
  | .click button count _ => List.replicate count.toNat (.input (.click point button.text))
  | .move => [.input (.moveCursor point)]
  | .drag (.coordinates x y _ _ _ _) _ => [.deed (.drag point ⟨x, y⟩ "left" deadlineAtMs)]
  | action => keyboardPlan action

def elementPlan (element : NativeElement) : Action → List DesktopOp
  | .setValue value => [.deed (.elementSetValue element value deadlineAtMs)]
  | action => keyboardPlan action

/-- What is done to an element that was found on macOS. -/
def macCall (element : AxElement) : Action → Option DeedCall
  | .invoke => some (.macSemanticInvoke element deadlineAtMs)
  | .setValue value => some (.macSemanticSetValue element value deadlineAtMs)
  | .selectText start length => some (.macSemanticSelectText element start length deadlineAtMs)
  | .performSecondaryAction name =>
    some (.macSemanticPerformSecondaryAction element name deadlineAtMs)
  | .scroll direction amount =>
    (macScrollActionName direction).map fun name =>
      .macSemanticScroll element name amount deadlineAtMs
  | _ => none

def semanticCall (target : SemanticTargetRef) : Action → Option SemanticCall
  | .invoke => some (.invoke target deadlineAtMs)
  | .setValue value => some (.setValue target value deadlineAtMs)
  | .scroll direction _ => if os = .windows then some (.scroll target direction deadlineAtMs) else none
  | _ => none

/-- The one call for a semantic target. -/
def IsSemanticStep (target : SemanticTargetRef) (action : Action) (op : DesktopOp) : Prop :=
  match os with
  | .macos => ∃ element call, macCall deadlineAtMs element action = some call ∧ op = .deed call
  | .other => False
  | _ => ∃ call, semanticCall os deadlineAtMs target action = some call ∧ op = .semantic call

/-- The question that a program begins with. -/
def opening {α : Type} : Prog Desktop α → Option DesktopOp
  | .ask op _ => some op
  | .ret _ => none

/-- The command of an action that has no target. -/
def auxiliaryCall (action : Action) : Option DesktopOp :=
  match os with
  | .macos => (auxiliaryStatus action).bind fun status => opening status.run
  | _ => none

/-- What a dispatch of an action to a target is to do. -/
def IsPlan (action : Action) (target : ResolvedTarget) (plan : List DesktopOp) : Prop :=
  match auxiliaryCall os action, target with
  | some op, _ => plan = [op]
  | none, .point point => plan = pointerPlan deadlineAtMs point action
  | none, .element element => plan = elementPlan deadlineAtMs element action
  | none, .semantic target => (∃ op, IsSemanticStep os deadlineAtMs target action op ∧ plan = [op]) ∨
      goesToFocus action = true ∧ plan = keyboardPlan action
  | none, .none => False

/-! ### Rules -/

variable {os deadlineAtMs} {α : Type} {Plan : List DesktopOp → Prop} {R : Past → Prop}
  {Q : α → Past → Prop} {done rest : List DesktopOp}

/-- A program carries out a plan, and tells of its calls if it fails. -/
abbrev Carries (Plan : List DesktopOp → Prop) (R : Past → Prop)
    (Q : α → Past → Prop) (x : NativeM α) : Prop :=
  Upholds (work.Next Plan) Tells R Q x

theorem carries_unreachable (message : String) : Carries Plan R Q (unreachable message) :=
  upholds_throw fun _ _ _ other => nomatch other

theorem carries_unknown {error : DispatchError} (unknown : error.effect = .unknown) :
    Carries Plan R Q (fail error) :=
  upholds_throw fun past _ => tells_unknown unknown past

theorem carries_refuse (error : DispatchError) : Carries Plan Untouched Q (fail error) :=
  upholds_throw fun _ => tells_untouched _

theorem carries_require (c : Prop) [Decidable c] (error : DispatchError) :
    Carries Plan Untouched (fun _ => Untouched) (Prog.when c (fail error)) :=
  upholds_ite (fun _ => carries_refuse error) fun _ => upholds_pure fun _ => id

theorem carries_answer {ε : Type} (told : ε → DispatchError) (answer : Except ε α) :
    Carries Plan Untouched (fun _ => Untouched) (orFault told answer) := by
  cases answer with
  | ok value => exact upholds_pure fun _ => id
  | error e => exact carries_refuse (told e)

/-- Errors of a program in place of faults. -/
theorem carries_raise {x : DispatchM Desktop α}
    (upholds : Upholds (work.Next Plan) (fun error => Tells (.error error)) R Q x) :
    Carries Plan R Q (raise x) := by
  intro past known
  apply follows_bind
  apply follows_mono (upholds past known)
  intro result now verdict
  cases result with
  | ok value => exact verdict
  | error error => exact verdict

/-! ### Checks -/

section

variable {E : DispatchError → Past → Prop}

theorem carries_isInterrupted (lasting : Lasting work.Idle R) :
    Upholds (work.Next Plan) E R (fun _ => R) (isInterrupted boundary deadlineAtMs) := by
  apply upholds_bind (carries_look lasting rfl)
  intro cancelled
  cases cancelled with
  | true => exact upholds_pure fun _ => id
  | false =>
    apply upholds_bind (carries_look lasting rfl)
    exact fun nowMs => upholds_pure fun _ => id

/-- What an interruption is told as. -/
theorem carries_stop {stop : DispatchM Desktop Unit} (lasting : Lasting work.Idle R)
    (stopped : Upholds (work.Next Plan) E R (fun _ => R) stop) :
    Upholds (work.Next Plan) E R (fun _ => R) (do
      if ← isInterrupted boundary deadlineAtMs then stop else pure ()) := by
  apply upholds_bind (carries_isInterrupted lasting)
  intro interrupted
  cases interrupted with
  | true => exact stopped
  | false => exact upholds_pure fun _ => id

end

theorem upholds_before :
    Upholds (work.Next Plan) (fun error => Tells (.error error)) Untouched (fun _ => Untouched)
      (checkBeforeEffect boundary deadlineAtMs) := by
  apply carries_idle lasting_progress
  · exact only_checkBeforeEffect ⟨rfl, fun _ => trivial⟩ ⟨rfl, fun _ => trivial⟩
  · exact fun error _ => tells_untouched (.error error)

theorem carries_before :
    Carries Plan Untouched (fun _ => Untouched) (raise (checkBeforeEffect boundary deadlineAtMs)) :=
  carries_raise upholds_before

theorem carries_after (lasting : Lasting work.Idle R) :
    Carries Plan R (fun _ => R) (raise (checkAfterEffect boundary deadlineAtMs)) :=
  carries_raise (carries_stop lasting (upholds_throw fun past _ => tells_unknown rfl past))

theorem carries_partly {index : Nat} (message : String) (first : index = 0 → done = []) :
    Carries Plan (work.Progress done) (fun _ => work.Progress done)
      (raise (checkPartialDispatch boundary deadlineAtMs index message)) := by
  apply carries_raise
  apply upholds_ite
  · intro start
    obtain rfl := first start
    exact upholds_before
  · intro _
    exact carries_stop lasting_progress (upholds_throw fun past _ => tells_unknown rfl past)

theorem carries_receipt (lasting : Lasting work.Idle R) :
    Carries Plan R (fun _ => R) (receipt os deadlineAtMs) :=
  upholds_bind (carries_after lasting) fun _ => upholds_pure fun _ => id

theorem carries_pointerReceipt (lasting : Lasting work.Idle R) (verification : VerificationPolicy) :
    Carries Plan R (fun _ => R) (pointerReceipt os deadlineAtMs verification) :=
  upholds_ite (fun _ => carries_unknown rfl) fun _ => carries_receipt lasting

/-! ### Calls -/

theorem carries_call {op : DesktopOp} {f : op.Answer → NativeM α} {Q : α → Past → Prop}
    (isPlan : Plan (done ++ op :: rest)) (step : isStep op = true)
    (each : ∀ answer, Carries Plan (work.Stepped done ⟨op, answer⟩) Q (f answer)) :
    Carries Plan (work.Progress done) Q ((monadLift (ask op) : NativeM op.Answer) >>= f) :=
  upholds_bind (carries_step isPlan step) each

theorem carries_worked {op : DesktopOp} {answer : op.Answer} (value : α)
    (succeeded : worked ⟨op, answer⟩ = true) :
    Carries Plan (work.Stepped done ⟨op, answer⟩) (fun _ => work.Progress (done ++ [op]))
      (pure value) :=
  upholds_pure fun _ stepped => progress_stepped stepped succeeded

/-- The only call has failed with the error. -/
theorem carries_refused {e : Event Desktop} {error : DispatchError} (refused : Refused error e) :
    Carries Plan (work.Stepped [] e) Q (fail error) := by
  apply upholds_throw
  rintro past stepped _ ⟨⟩ _
  exact .inr ⟨e, stepped_first stepped, refused⟩

theorem carries_input {call : InputCall} {error : DispatchError} (unknown : error.effect = .unknown)
    (isPlan : Plan (done ++ .input call :: rest)) :
    Carries Plan (work.Progress done) (fun _ => work.Progress (done ++ [.input call]))
      (input call error) := by
  apply carries_call isPlan rfl
  intro answer
  cases answer with
  | ok value => exact carries_worked value rfl
  | error e => exact carries_unknown unknown

theorem carries_deed {call : DeedCall} (isPlan : Plan [.deed call]) :
    Carries Plan Untouched (fun _ => work.Progress [.deed call]) (deed call) := by
  apply @carries_call _ _ [] [] _ _ _ isPlan rfl
  intro answer
  cases answer with
  | ok value => exact carries_worked value rfl
  | error e => exact carries_refused rfl

theorem carries_semantic {call : SemanticCall} (isPlan : Plan [.semantic call]) :
    Carries Plan Untouched (fun _ => work.Progress [.semantic call]) (semantic call) := by
  apply @carries_call _ _ [] [] _ _ _ isPlan rfl
  intro answer
  cases answer with
  | ok value => exact carries_worked value rfl
  | error e => exact carries_refused rfl

/-- The command of an action has succeeded, or what follows is an error. -/
theorem carries_command {program : String} {arguments : List (List UInt8)}
    (isPlan : Plan [.status ⟨program, arguments⟩]) :
    Carries Plan Untouched
      (fun success past => success = true → work.Progress [.status ⟨program, arguments⟩] past)
      (command program arguments) := by
  apply @carries_call _ _ [] [] _ _ _ isPlan rfl
  intro answer
  cases answer with
  | ok success =>
    apply upholds_pure
    rintro past stepped rfl
    exact progress_stepped stepped rfl
  | error e => exact carries_unknown rfl

theorem carries_copy {text : String} (isPlan : Plan [.copy text]) :
    Carries Plan Untouched (fun success past => success = true → work.Progress [.copy text] past)
      (do orFault (fun e => .ambiguous (copyMessage e)) (← ask (.copy text))) := by
  apply @carries_call _ _ [] [] _ _ _ isPlan rfl
  intro answer
  cases answer with
  | ok success =>
    apply upholds_pure
    rintro past stepped rfl
    exact progress_stepped stepped rfl
  | error e => exact carries_unknown rfl

/-- A call that is repeated, and what its turn does. -/
theorem carries_repeatedly {op : DesktopOp} (count : UInt32) (message : String)
    {body : Nat → NativeM Unit} (isPlan : Plan (List.replicate count.toNat op))
    (each : ∀ done rest index, Plan (done ++ op :: rest) →
      Carries Plan (work.Progress done) (fun _ => work.Progress (done ++ [op])) (body index)) :
    Carries Plan Untouched (fun _ => work.Progress (List.replicate count.toNat op))
      (repeatedly deadlineAtMs count message body) := by
  apply @upholds_range _ _ _ _ fun index => work.Progress (List.replicate index op)
  intro index below
  have first : index = 0 → List.replicate index op = [] := by
    rintro rfl
    rfl
  apply upholds_bind (carries_partly message first)
  intro _
  rw [List.replicate_succ']
  exact each _ _ index (@replicate_cut Desktop _ _ below op ▸ isPlan)

end Praefectus.Native
