import Praefectus.Observe.LinuxTarget
import Praefectus.Program.Handled

/-!
# Effects on Linux

An element is invoked, or its value is set. The element is resolved again, found fit and looked
at once more, and only then its provider is asked for the effect. The provider answers whether
the effect came about.
-/

namespace Praefectus.Atspi

open Prog

/-! ### Requests -/

/-- What a provider is asked to change. -/
inductive Effect where
  | doAction (object : StoredObject) (index : Int32)
  | setTextContents (object : StoredObject) (value : String)
  deriving DecidableEq

inductive EffectOp where
  | target (op : TargetOp)
  | effect (effect : Effect)

abbrev EffectBus : Interface where
  Op := EffectOp
  Ans
    | .target op => TargetBus.Ans op
    | .effect _ => Except NativeError Bool

abbrev EffectM := DispatchM EffectBus

/-- What is done for a target, done for an effect. -/
def onTarget {α : Type} : Prog TargetBus α → Prog EffectBus α :=
  rename .target fun _ ans => ans

def askEffect (op : EffectOp) : Prog EffectBus (EffectBus.Ans op) := perform (I := EffectBus) op

def effectBoundary : Boundary EffectBus :=
  ⟨askEffect (.target (.bus .isCancelled)), askEffect (.target (.bus .nowMs))⟩

/-! ### Errors -/

def refusal (code : FailureCode) (message : String) : DispatchError := ⟨message, .noEffect, code⟩

def unknownAfterDispatch : DispatchError := .ambiguous "accessibility outcome is unknown"

def staleEffect (effect : EffectKnowledge) : DispatchError :=
  let message := match effect with
    | .cancelledBeforeEffect => "cancelled before effect"
    | .expiredBeforeEffect => "expired before effect"
    | _ => "semantic target changed"
  ⟨message, effect, .staleTarget⟩

def receipt : DispatchReceipt := ⟨backend, []⟩

section

variable (deadlineAtMs : Int64)

/-- What an error from before the effect is told as. -/
def protocolBeforeEffect : Prog EffectBus DispatchError := do
  if ← effectBoundary.isCancelled then pure (staleEffect .cancelledBeforeEffect)
  else if (← effectBoundary.nowMs) ≥ deadlineAtMs then pure (staleEffect .expiredBeforeEffect)
  else pure (staleEffect .noEffect)

def beforeEffect {α : Type} (x : TargetM α) : EffectM α := do
  match ← (monadLift (onTarget x.run) : EffectM (Except ProtocolError α)) with
  | .ok value => pure value
  | .error _ => throw (← (monadLift (protocolBeforeEffect deadlineAtMs) : EffectM DispatchError))

/-- A proxy that is got ready. -/
def proxyForEffect (x : TargetM Unit) : EffectM Unit := do
  orError (refusal .staleTarget "semantic target changed")
    (← (monadLift (onTarget x.run) : EffectM (Except ProtocolError Unit)))

def checkDispatchBoundary : EffectM Unit := checkBeforeEffect effectBoundary deadlineAtMs

def checkAfterDispatch : EffectM Unit := do
  if ← isInterrupted effectBoundary deadlineAtMs then throw unknownAfterDispatch else pure ()

/-- Asks for the effect, right after the last check. -/
def dispatchEffect (effect : Effect) : EffectM DispatchReceipt := do
  checkDispatchBoundary deadlineAtMs
  let dispatched ← (monadLift (askEffect (.effect effect)) : EffectM (Except NativeError Bool))
  if dispatched.toOption = some true then
    checkAfterDispatch deadlineAtMs
    pure receipt
  else throw unknownAfterDispatch

/-! ### Effects -/

variable (bit : State → UInt64) (bus : Bus) (build : Build)

def editableText (object : StoredObject) : TargetM Unit := accessibleProxy bus object

def isActionable (actionability : Actionability) : Bool :=
  actionability.visible && actionability.enabled && actionability.unambiguous &&
    actionability.stable

def changedAction : DispatchError := refusal .staleTarget "semantic action changed"

def invokeSample (stored : StoredSnapshot) (object : StoredObject) (sample : NodeSample) :
    EffectM DispatchReceipt := do
  if !isActionable sample.actionability || !sample.actionability.invokable then
    throw (refusal .staleTarget "semantic target is not actionable")
  else
    checkDispatchBoundary deadlineAtMs
    proxyForEffect (action bus object)
    match sample.invokeAction with
    | none => throw (refusal .staleTarget "semantic action is ambiguous")
    | some expectedAction =>
      let liveActions ← beforeEffect deadlineAtMs (actionNames deadlineAtMs object)
      if liveActions ≠ sample.identity.actions ||
          selectInvokeAction liveActions ≠ some expectedAction then
        throw changedAction
      else
        beforeEffect deadlineAtMs (atspi (validateLiveDescendant deadlineAtMs bus object
          stored.window stored.processId stored.processGeneration))
        let actionsAgain ← beforeEffect deadlineAtMs (actionNames deadlineAtMs object)
        if actionsAgain ≠ liveActions then throw changedAction
        else dispatchEffect deadlineAtMs (.doAction object expectedAction.index)

def semanticInvoke (target : SemanticTargetRef) : EffectM DispatchReceipt := do
  let (stored, object, sample) ←
    beforeEffect deadlineAtMs (resolveLive bit deadlineAtMs bus build target false)
  invokeSample deadlineAtMs bus stored object sample

def setSample (value : String) (stored : StoredSnapshot) (object : StoredObject)
    (sample : NodeSample) : EffectM DispatchReceipt := do
  if !isActionable sample.actionability || !sample.actionability.editable ||
      sample.valueHash.isNone then
    throw (refusal .staleTarget "semantic target is not editable")
  else
    checkDispatchBoundary deadlineAtMs
    proxyForEffect (editableText bus object)
    beforeEffect deadlineAtMs (atspi (validateLiveDescendant deadlineAtMs bus object
      stored.window stored.processId stored.processGeneration))
    dispatchEffect deadlineAtMs (.setTextContents object value)

def semanticSetValue (target : SemanticTargetRef) (value : String) : EffectM DispatchReceipt := do
  if value.utf8ByteSize > 16 * 1024 || '\x00' ∈ value.toList then
    throw (refusal .invalidRequest "value is invalid")
  else
    let (stored, object, sample) ←
      beforeEffect deadlineAtMs (resolveLive bit deadlineAtMs bus build target true)
    setSample deadlineAtMs bus value stored object sample

end

end Praefectus.Atspi
