import Praefectus.Observe.CdpDispatch
import Praefectus.Observe.CdpProtected

/-!
# What a dispatch to a page may do

A page is changed once at most in a dispatch, and only behind its fence. What the dispatch says
of it is so, and the value of a protected element is not asked for before it was set.
-/

namespace Praefectus.Cdp.CdpExecutor

open Prog Json

section

variable {build : Build} {config : CdpConfig} {scripts : Scripts} {deadlineAtMs : Int64}
  {rounds : Nat} {action : Action} {target : ResolvedTarget} {verification : VerificationPolicy}
  {past before after : Past} {e : Event LiveBrowser}

theorem effect_not_plain (effect : isEffect scripts e.op = true) : ¬ Plain scripts e.op :=
  fun plain => absurd (effect.symm.trans plain.1) (by decide)

theorem reveal_not_plain (revealing : reveals scripts e.op = true) : ¬ Plain scripts e.op :=
  fun plain => absurd (revealing.symm.trans plain.2) (by decide)

/-- One effect at most was asked for, and it did not come about if the error says so. -/
theorem told_once {error : DispatchError} (told : Told scripts error past) :
    (effectsOf scripts past).length ≤ 1 ∧
      (error.effect ≠ .unknown → ∀ e ∈ effectsOf scripts past, Undone e) := by
  rcases told with ⟨none, _⟩ | ⟨e, one, said⟩
  · simp [none]
  · rw [one]
    refine ⟨le_rfl, fun known e' member => ?_⟩
    obtain rfl := List.mem_singleton.mp member
    exact said.resolve_left known

/-- What a function is told to do for an action names a function that changes the page. -/
theorem effectParameters_changes {objectId : String} {parameters : Json}
    {requirements : LiveTargetRequirements}
    (told : effectParameters scripts objectId action = some (parameters, requirements)) :
    isEffect scripts (.browser (.command callMethod parameters deadlineAtMs)) = true := by
  unfold effectParameters at told
  split at told
  · obtain ⟨rfl, _⟩ := Prod.mk.inj (Option.some.inj told)
    exact @effect_call scripts deadlineAtMs _ scripts.invokeEffect rfl (by simp)
  · obtain ⟨rfl, _⟩ := Prod.mk.inj (Option.some.inj told)
    exact @effect_call scripts deadlineAtMs _ scripts.setValueEffect rfl (by simp)
  · obtain ⟨rfl, _⟩ := Prod.mk.inj (Option.some.inj told)
    exact @effect_call scripts deadlineAtMs _ scripts.scrollEffect rfl (by simp)
  · contradiction

/-- The effect that was done is the only one. -/
theorem done_once (finished : Done build scripts deadlineAtMs action past) :
    ∃ parameters reply, effectsOf scripts past =
      [⟨.browser (.command callMethod parameters deadlineAtMs), some (.ok reply)⟩] ∧
      eligible reply = some true := by
  obtain ⟨objectId, parameters, requirements, reply, earlier, since, told, rfl, clean, clean', _,
    accepted, _⟩ := finished
  have effect : isEffect scripts (.browser (.command callMethod parameters deadlineAtMs)) = true :=
    effectParameters_changes told
  refine ⟨parameters, reply, ?_, accepted⟩
  unfold effectsOf at clean clean' ⊢
  simp [clean, clean', effect]

end

/-! ### A text box that is given a value -/

def boxScripts : Scripts where
  probe := "probe"
  protectedProbe := "protected probe"
  scrollProbe := "scroll probe"
  scrollEffect := "scroll"
  invokeEffect := "invoke"
  setValueEffect := "set value"
  distinct := by decide

/-- What each function reports of the text box. -/
def boxReport : Json := .obj [("result", .obj [("value", .obj [
  ("connected", .bool true),
  ("visible", .bool true),
  ("enabled", .bool true),
  ("editable", .bool true),
  ("eligible", .bool true),
  ("valueHash", .str (hashBytes pageBuild "new".asBytes)),
  ("valueLength", ofUInt64 3),
  ("valueTooLarge", .bool false)])])]

def boxLive : (op : LiveOp) → LiveBrowser.Ans op
  | .browser (.command method parameters deadlineAtMs) =>
    if method = callMethod then some (.ok boxReport)
    else boxAnswer false "" "" (.command method parameters deadlineAtMs)
  | .browser .isCancelled => false
  | .browser .nowMs => (2000 : Int64)
  | .browser .verifyProcess => .ok ()
  | .browser .nextGeneration => (0 : UInt64)
  | .browser (.publish _) => some ()
  | .browser .latest => some (some (boxStored false))
  | .browser .spin => ()
  | .instant => (0 : Nat)
  | .sleep _ => ()

def boxNative : NativeElement where
  backend := backendName
  id := boxElement.elementId
  app := "chromium"
  processId := some (.ofNat 7)
  window := none
  role := "textbox"
  label := none
  title := none
  bounds := none
  state := ⟨.obj [], rfl⟩
  enabled := some true

def boxDispatch : EffectM DispatchReceipt :=
  dispatch pageBuild pageConfig boxScripts 4000 8 (.setValue "new") (.element boxNative) .none

def isOk {ε α : Type} : Except ε α → Bool
  | .ok _ => true
  | .error _ => false

/-- The text box is given the value. -/
theorem boxDispatch_run : ∃ past receipt, Steps boxDispatch.run past (.ret (.ok receipt)) ∧
    Done pageBuild boxScripts 4000 (.setValue "new") past := by
  have found : isOk (boxDispatch.run.answered boxLive) = true := by decide +kernel
  have told (op : LiveOp) : (⟨op, boxLive op⟩ : Event LiveBrowser).ans = boxLive op := rfl
  obtain ⟨past, _, run⟩ :=
    @steps_answered LiveBrowser _ boxLive (fun e => e.ans = boxLive e.op) told boxDispatch.run
  cases result : boxDispatch.run.answered boxLive with
  | error error =>
    rw [result] at found
    contradiction
  | ok receipt =>
    rw [result] at run
    have verdict := dispatch_ends run
    exact ⟨past, receipt, run, verdict.2⟩

/-- The effect, in its place in the history. -/
theorem boxDispatch_effect : ∃ before e after p,
    Steps boxDispatch.run (before ++ e :: after) p ∧ isEffect boxScripts e.op = true := by
  obtain ⟨past, receipt, run, finished⟩ := boxDispatch_run
  obtain ⟨parameters, reply, one, _⟩ := done_once finished
  obtain ⟨e, rest, same⟩ : ∃ e rest, effectsOf boxScripts past = e :: rest := ⟨_, _, one⟩
  have member : e ∈ effectsOf boxScripts past := same ▸ List.mem_cons_self
  obtain ⟨member, effect⟩ := List.mem_filter.mp member
  obtain ⟨before, after, rfl⟩ := List.append_of_mem member
  exact ⟨before, e, after, _, run, effect⟩

/-! ### Every dispatch -/

section

variable {build : Build} {config : CdpConfig} {scripts : Scripts} {deadlineAtMs : Int64}
  {rounds : Nat} {action : Action} {target : ResolvedTarget} {verification : VerificationPolicy}
  {past before after : Past} {e : Event LiveBrowser}

/-- **The fence**: in every history of a dispatch, the page is changed only through the object of
an element of the latest observation, once at most, and after all was seen to be as observed. -/
theorem page_dispatch_fenced {p : Prog LiveBrowser (Except DispatchError DispatchReceipt)}
    (run : Steps (dispatch build config scripts deadlineAtMs rounds action target verification).run
      (before ++ e :: after) p) (effect : isEffect scripts e.op = true) :
    ∃ element, target = .element element ∧
      Fenced build config scripts deadlineAtMs action element.id before e.op := by
  obtain ⟨element, same, allowed⟩ := dispatch_asks run (effect_not_plain effect)
  exact ⟨element, same, allowed.1 effect⟩

theorem page_dispatch_fenced_box : ∃ before e after p,
    Steps boxDispatch.run (before ++ e :: after) p ∧ isEffect boxScripts e.op = true ∧
      ∃ element, ResolvedTarget.element boxNative = .element element ∧
        Fenced pageBuild pageConfig boxScripts 4000 (.setValue "new") element.id before e.op := by
  obtain ⟨before, e, after, p, run, effect⟩ := boxDispatch_effect
  exact ⟨before, e, after, p, run, effect, page_dispatch_fenced run effect⟩

/-- **What is said of the effect**: unless its error leaves it open, a dispatch that fails did
not change the page; one that succeeds did, and has seen it. -/
theorem page_dispatch_settled {result : Except DispatchError DispatchReceipt}
    (run : Steps (dispatch build config scripts deadlineAtMs rounds action target verification).run
      past (.ret result)) :
    (effectsOf scripts past).length ≤ 1 ∧
      (∀ error, result = .error error → error.effect ≠ .unknown →
        ∀ e ∈ effectsOf scripts past, Undone e) ∧
      ∀ receipt, result = .ok receipt →
        receipt = successReceipt ∧ Done build scripts deadlineAtMs action past := by
  have verdict := dispatch_ends run
  cases result with
  | error error =>
    obtain ⟨once, undone⟩ := told_once verdict
    refine ⟨once, ?_, fun _ other => (nomatch other)⟩
    rintro _ ⟨⟩
    exact undone
  | ok receipt =>
    obtain ⟨_, _, one, _⟩ := done_once verdict.2
    refine ⟨by simp [one], fun _ other => (nomatch other), ?_⟩
    rintro _ ⟨⟩
    exact verdict

theorem page_dispatch_settled_box : ∃ past receipt, Steps boxDispatch.run past (.ret (.ok receipt)) ∧
    (effectsOf boxScripts past).length ≤ 1 ∧
      (∀ error, (.ok receipt : Except DispatchError DispatchReceipt) = .error error →
        error.effect ≠ .unknown → ∀ e ∈ effectsOf boxScripts past, Undone e) ∧
      ∀ receipt', (.ok receipt : Except DispatchError DispatchReceipt) = .ok receipt' →
        receipt' = successReceipt ∧ Done pageBuild boxScripts 4000 (.setValue "new") past := by
  obtain ⟨past, receipt, run, _⟩ := boxDispatch_run
  exact ⟨past, receipt, run, page_dispatch_settled run⟩

/-- **Discretion**: the function that tells of a value is called on the object of the target only,
which is not protected, or after the dispatch has asked for its effect on it. -/
theorem page_dispatch_discreet {p : Prog LiveBrowser (Except DispatchError DispatchReceipt)}
    (run : Steps (dispatch build config scripts deadlineAtMs rounds action target verification).run
      (before ++ e :: after) p) (revealing : reveals scripts e.op = true) :
    ∃ element, target = .element element ∧
      MayReveal scripts deadlineAtMs action element.id before e.op := by
  obtain ⟨element, same, allowed⟩ := dispatch_asks run (reveal_not_plain revealing)
  exact ⟨element, same, allowed.2 revealing⟩

/-- The value is read back after the text box was given it. -/
theorem page_dispatch_discreet_box : ∃ before e after p,
    Steps boxDispatch.run (before ++ e :: after) p ∧ reveals boxScripts e.op = true ∧
      ∃ element, ResolvedTarget.element boxNative = .element element ∧
        MayReveal boxScripts 4000 (.setValue "new") element.id before e.op := by
  obtain ⟨past, receipt, run, finished⟩ := boxDispatch_run
  obtain ⟨objectId, _, _, reply, earlier, since, _, rfl, _, _, _, _, response, probe, replied, _⟩ :=
    finished
  obtain ⟨before, after, rfl⟩ := List.append_of_mem replied
  rw [← List.cons_append, ← List.append_assoc] at run
  exact ⟨_, _, _, _, run, rfl, page_dispatch_discreet run rfl⟩

end

end Praefectus.Cdp.CdpExecutor
