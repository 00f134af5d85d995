import Praefectus.Native.LinuxDeeds
import Praefectus.Program.Refusals

/-!
# Input through the portal

No session of the portal is ever opened, since the one reply to the request for it is read under
two signatures. An operation in a Wayland session goes no further than to that reply.
-/

namespace Praefectus.Linux

open Prog

/-- The requests that open a session of the portal. -/
def OpensSession : InputOp → Prop
  | .call .lockPortalSession | .call .portalConnection | .call .createSession => True
  | .call (.authorize _) | .call (.start _) | .setPortalSession _ => True
  | _ => False

/-- They touch neither the keyboard nor the pointer. -/
theorem silent_session (op : InputOp) (opens : OpensSession op) : ¬ deedsOf op ≠ [] := by
  cases op with
  | call request =>
    cases request with
    | lockPortalSession | portalConnection | createSession | authorize | start => simp [deedsOf]
    | _ => exact opens.elim
  | setPortalSession => simp [deedsOf]
  | _ => exact opens.elim

section

variable {effect : InputOp → Prop}

/-- A program that asks for no effect and never returns a value. -/
abbrev Fails {α : Type} (effect : InputOp → Prop) (x : InputM α) : Prop :=
  Judged (idle effect) (fun _ _ => False) (fun _ _ => True) x ()

/-- A request without an effect, whatever is answered. -/
theorem fails_call {α : Type} {request : InputCall} {f : request.Result → InputM α}
    (harmless : ¬ effect (.call request)) (rest : ∀ value, Fails effect (f value)) :
    Fails effect (call request >>= f) := by
  apply judged_bind
  intro answer
  refine ⟨(), ⟨harmless, rfl⟩, ?_⟩
  cases answer with
  | ok value => exact rest value
  | error => trivial

variable (harmless : ∀ op, OpensSession op → ¬ effect op)

include harmless

theorem fails_portalCreateSession : Fails effect portalCreateSession := by
  apply @fails_call effect _ .createSession _ (harmless _ trivial)
  intro reply
  split
  next handle created =>
    exact absurd (reply.sessionHandle_none.symm.trans created) (Option.some_ne_none handle).symm
  next => exact judged_throw trivial

theorem fails_ensurePortalSession : Fails effect ensurePortalSession := by
  apply @fails_call effect _ .lockPortalSession _ (harmless _ trivial)
  intro held
  cases held with
  | some session => exact isEmptyElim session
  | none =>
    apply @fails_call effect _ .portalConnection _ (harmless _ trivial)
    intro _
    exact judged_idle_first (fails_portalCreateSession harmless)

/-! ### Operations -/

theorem fails_portalPress (key : String) (count : UInt32) (delayMs : Option UInt64) :
    Fails effect (portalPress key count delayMs) := by
  by_cases absent : (keysymForKey key).getD 0 = 0
  · simp only [portalPress, absent, if_true]
    exact judged_throw trivial
  · simp only [portalPress, absent, if_false]
    exact judged_idle_first (fails_ensurePortalSession harmless)

theorem fails_portalHotkey (keys : List String) : Fails effect (portalHotkey keys) :=
  judged_idle_first (fails_ensurePortalSession harmless)

theorem fails_portalTypeText (text : String) (clear pressReturn : Bool)
    (delayMs : Option UInt64) : Fails effect (portalTypeText text clear pressReturn delayMs) := by
  cases clear with
  | true =>
    have cleared : Fails effect portalClear := judged_idle_first (fails_portalHotkey harmless _)
    exact judged_idle_first cleared
  | false =>
    apply judged_bind
    exact judged_pure (judged_idle_first (fails_ensurePortalSession harmless))

theorem fails_portalClick (button : MouseButton) : Fails effect (portalClick button) :=
  judged_idle_first (fails_ensurePortalSession harmless)

theorem fails_portalMove (point : NativePoint) : Fails effect (portalMove point) :=
  judged_idle_first (fails_ensurePortalSession harmless)

end

end Praefectus.Linux
