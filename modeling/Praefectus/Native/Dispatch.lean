import Praefectus.Program.Tree
import Praefectus.Protocol.Request

/-!
# Boundaries of a dispatch

A dispatch stops at a cancellation or at its deadline. What its error says of the effect
depends on whether something was sent by then.
-/

namespace Praefectus

structure NativeError where
  deriving DecidableEq

/-! ### Errors of a dispatch -/

namespace DispatchError

def noEffect (message : String) : DispatchError := ⟨message, .noEffect, .invalidRequest⟩

def unsupported (message : String) : DispatchError := ⟨message, .noEffect, .unsupported⟩

def ambiguous (message : String) : DispatchError := ⟨message, .unknown, .dispatchFailed⟩

def interrupted (effect : EffectKnowledge) : DispatchError :=
  let message := match effect with
    | .cancelledBeforeEffect => "cancelled before effect"
    | .expiredBeforeEffect => "expired before effect"
    | _ => "interrupted"
  ⟨message, effect, .dispatchFailed⟩

/-- A backend that fails may have done something. -/
def ambiguousDispatch : DispatchError := ambiguous "desktop backend failed after dispatch began"

end DispatchError

/-! ### Checks -/

/-- The cancellation of a dispatch and the clock. -/
structure Boundary (I : Interface) where
  isCancelled : Prog I Bool
  nowMs : Prog I Int64

section

variable {I : Interface} (boundary : Boundary I) (deadlineAtMs : Int64)

abbrev DispatchM (I : Interface) := ExceptT DispatchError (Prog I)

/-- The value of an answer, or an error in place of its own. -/
def orError {I : Interface} {ε α : Type} (error : DispatchError) : Except ε α → DispatchM I α
  | .ok value => pure value
  | .error _ => throw error

def isInterrupted : DispatchM I Bool := do
  if ← boundary.isCancelled then pure true
  else pure (decide ((← boundary.nowMs) ≥ deadlineAtMs))

def checkBeforeEffect : DispatchM I Unit := do
  if ← boundary.isCancelled then throw (.interrupted .cancelledBeforeEffect)
  else if (← boundary.nowMs) ≥ deadlineAtMs then throw (.interrupted .expiredBeforeEffect)
  else pure ()

def checkAfterEffect : DispatchM I Unit := do
  if ← isInterrupted boundary deadlineAtMs then
    throw (.ambiguous "action completed at the cancellation or deadline boundary")
  else pure ()

def checkPartialDispatch (index : Nat) (interruptedMessage : String) : DispatchM I Unit := do
  if index = 0 then checkBeforeEffect boundary deadlineAtMs
  else if ← isInterrupted boundary deadlineAtMs then throw (.ambiguous interruptedMessage)
  else pure ()

/-! ### Typing -/

/-- The check between characters and after the last. -/
def checkTyping (effectStarted : Bool) : DispatchM I Unit := do
  if ← isInterrupted boundary deadlineAtMs then
    if effectStarted then throw (.ambiguous "type action interrupted after partial dispatch")
    else if ← boundary.isCancelled then throw (.interrupted .cancelledBeforeEffect)
    else throw (.interrupted .expiredBeforeEffect)
  else pure ()

variable (typeText : String → Bool → Bool → Option UInt64 → Prog I (Except NativeError Unit))

/-- Types a text, through the backend. -/
def sendText (text : String) (clear pressReturn : Bool) (delayMs : Option UInt64) :
    DispatchM I Unit := do
  orError .ambiguousDispatch (← typeText text clear pressReturn delayMs)

def chunkSize (delayMs : Option UInt64) : Nat := if delayMs.isSome then 1 else 64

/-- Adds a character to the chunk, and types the chunk once it is full. -/
def typeCharacter (delayMs : Option UInt64) (chunk : String × Bool) (character : Char) :
    DispatchM I (String × Bool) := do
  checkTyping boundary deadlineAtMs chunk.2
  let text := chunk.1.push character
  if text.length = chunkSize delayMs then
    sendText typeText text false false delayMs
    pure ("", true)
  else pure (text, chunk.2)

def dispatchTypeText (text : String) (clear pressReturn : Bool) (delayMs : Option UInt64) :
    DispatchM I Unit := do
  if text = "" ∨ text.utf8ByteSize > 16 * 1024 ∨ delayMs.any (· > 1000) then
    throw (.noEffect "type action parameters are invalid")
  else
    Prog.when clear (sendText typeText "" true false none)
    let (chunk, effectStarted) ←
      text.toList.foldlM (typeCharacter boundary deadlineAtMs typeText delayMs) ("", clear)
    Prog.when (chunk ≠ "") (sendText typeText chunk false false delayMs)
    checkTyping boundary deadlineAtMs (effectStarted || chunk ≠ "")
    Prog.when pressReturn (sendText typeText "" false true none)

end

end Praefectus
