import Praefectus.Native.LinuxDeeds
import Praefectus.Native.PlannedDispatch
import Praefectus.Observe.LinuxFence

/-!
# Dispatches on Linux

The calls of a dispatch go to the X server or to the portal, to the clipboard, or to the
accessibility of Linux. With what they do in place of the calls, a dispatch succeeds only if all
of it has worked, and an error that does not leave the effect open says that nothing was done.
-/

namespace Praefectus.Linux

open Prog Native

/-! ### Calls -/

inductive LinuxOp where
  | desktop (op : DesktopOp)
  | input (op : InputOp)
  | clipboard (program : String) (arguments : List String) (text : String)
  | accessibility (op : Atspi.EffectOp)

/-- The program of a clipboard fails, or tells whether it succeeded. -/
abbrev LinuxDesktop : Interface where
  Op := LinuxOp
  Ans
    | .desktop op => op.Answer
    | .input op => Input.Ans op
    | .clipboard .. => Except NativeError Bool
    | .accessibility op => Atspi.EffectBus.Ans op

abbrev LinuxM := ExceptT NativeError (Prog LinuxDesktop)

def onInput {α : Type} (x : InputM α) : LinuxM α :=
  ExceptT.mk (x.run.rename .input fun _ ans => ans)

def copyWith (program : String) (arguments : List String) (text : String) : LinuxM Unit := do
  let succeeded ← (ExceptT.mk (perform (I := LinuxDesktop) (.clipboard program arguments text)) :
    LinuxM Bool)
  if succeeded then pure () else throw ⟨⟩

section

variable (env : SessionEnvironment) (isUppercase : Char → Bool)

def nativePaste (text : String) : LinuxM Unit :=
  if '\x00' ∈ text.toList then throw ⟨⟩
  else match sessionType env with
    | .x11 => do
      copyWith "xclip" ["-selection", "clipboard"] text
      onInput (x11Hotkey ["ctrl", "v"])
    | .wayland => do
      copyWith "wl-copy" [] text
      onInput (portalHotkey ["ctrl", "v"])
    | .unknown => throw ⟨⟩

def buttonOf : String → Option MouseButton
  | "left" => some .left
  | "right" => some .right
  | "middle" => some .middle
  | _ => none

/-- What a call of the backend does. -/
def nativeInput : Native.InputCall → LinuxM Unit
  | .click point button =>
    match buttonOf button with
    | some button => onInput (nativeClick env point button)
    | none => throw ⟨⟩
  | .moveCursor point => onInput (nativeMove env point)
  | .typeText text clear pressReturn delayMs =>
    onInput (nativeTypeText isUppercase env text clear pressReturn delayMs)
  | .press key count delayMs => onInput (nativePress env key count delayMs)
  | .paste text => nativePaste env text
  | .hotkey keys => onInput (nativeHotkey env keys)
  | .scroll direction amount => onInput (nativeScroll env direction amount)

/-- No deed is done on Linux. -/
def linuxDeed : DeedCall → DispatchError
  | .drag .. => .unsupported "drag is unavailable on this backend"
  | .elementSetValue .. => .unsupported "accessibility actions are unavailable"
  | _ => .unsupported "semantic action is unavailable"

variable (bit : Atspi.State → UInt64) (bus : Atspi.Bus) (build : Build)

/-- The questions of a dispatch, with each call carried out. -/
def answers : (op : DesktopOp) → Prog LinuxDesktop op.Answer
  | .input call => (nativeInput env isUppercase call).run
  | .deed call => .ret (.error (linuxDeed call))
  | .semantic call => (Atspi.semantic bit bus build call).run.rename .accessibility fun _ ans => ans
  | op => .ask (.desktop op) .ret

def dispatch (deadlineAtMs : Int64) (deliveryPid : Int32) (action : Action)
    (target : ResolvedTarget) (verification : VerificationPolicy) :
    Prog LinuxDesktop (Except Fault DispatchReceipt) :=
  (Native.dispatch .linux deadlineAtMs build deliveryPid action target verification).run.handle
    (answers env isUppercase bit bus build)

end

/-! ### What was done -/

def isDeepStep : LinuxOp → Bool
  | .desktop op => Native.isStep op
  | .input op => deedsOf op ≠ []
  | .clipboard .. => true
  | .accessibility op => Atspi.isEffect op

def succeeded : Event Input → Bool
  | ⟨.call _, .error _⟩ => false
  | _ => true

def deepWorked : Event LinuxDesktop → Bool
  | ⟨.desktop op, answer⟩ => Native.worked ⟨op, answer⟩
  | ⟨.input op, answer⟩ => succeeded ⟨op, answer⟩
  | ⟨.clipboard .., answer⟩ => answer.toOption = some true
  | ⟨.accessibility op, answer⟩ => Atspi.accepted ⟨op, answer⟩

def deepWork : Steppers LinuxDesktop := ⟨isDeepStep, deepWorked⟩

/-! ### Input that fails with its requests -/

section

abbrev Sound {α : Type} (x : InputM α) : Prop := Strict (fun e => succeeded e = true) x

theorem sound_call (request : InputCall) : Sound (call request) := by
  intro trace value run
  obtain rfl := steps_ask.mp run
  exact List.forall_mem_singleton.mpr rfl

theorem sound_sleep (ms : UInt64) : Sound (sleep ms) := strict_lift fun _ => rfl

theorem sound_pause : ∀ delayMs : Option UInt64, Sound (pause delayMs)
  | none => strict_pure
  | some delay => strict_when (sound_sleep delay)

theorem sound_keysymToKeycode (setup : Setup) (keysym : UInt32) :
    Sound (keysymToKeycode setup keysym) := by
  apply strict_bind (sound_call _)
  intro mapping
  split
  · split
    · exact strict_pure
    · exact strict_throw
  · exact strict_throw

theorem sound_x11FakeInput (setup : Setup) (type detail : UInt8) :
    Sound (x11FakeInput setup type detail) :=
  strict_bind (sound_call _) fun _ => sound_call _

theorem sound_x11Tap (setup : Setup) (keycode : UInt8) : Sound (x11Tap setup keycode) :=
  strict_bind (sound_x11FakeInput setup 2 keycode) fun _ => sound_x11FakeInput setup 3 keycode

/-- Every request that opens a session has to be answered. -/
theorem sound_ensurePortalSession : Sound ensurePortalSession := by
  have created : Sound portalCreateSession := by
    apply @strict_bind _ _ _ _ _ _ _ (sound_call .createSession)
    intro reply
    split
    · exact strict_pure
    · exact strict_throw
  have accepted (reply : ReplyBody) : Sound (portalStatus reply) := by
    unfold portalStatus
    split
    · split
      · exact strict_throw
      · exact strict_pure
    · exact strict_throw
  have stored (session : PortalSession) : Sound (setPortalSession session) :=
    strict_lift fun _ => rfl
  apply strict_bind (sound_call .lockPortalSession)
  intro held
  cases held with
  | some session => exact strict_pure
  | none =>
    apply strict_bind (sound_call .portalConnection)
    intro _
    apply strict_bind created
    intro session
    apply strict_bind (strict_bind (sound_call (.authorize session.handle)) accepted)
    intro _
    apply strict_bind (strict_bind (sound_call (.start session.handle)) accepted)
    intro _
    exact strict_bind (stored session) fun _ => strict_pure

theorem sound_portalTap (keysym : UInt32) : Sound (portalTap keysym) :=
  strict_bind (sound_call _) fun _ => sound_call _

theorem sound_repeated {tap : InputM Unit} {count : UInt32} {delayMs : Option UInt64}
    (once : Sound tap) :
    Sound ((List.range count.toNat).forM fun i => do
      when (i > 0) (pause delayMs)
      tap) :=
  strict_forM fun _ => strict_bind (strict_when (sound_pause delayMs)) fun _ => once

theorem sound_x11Press (key : String) (count : UInt32) (delayMs : Option UInt64) :
    Sound (x11Press key count delayMs) := by
  apply strict_bind (sound_call _)
  intro setup
  by_cases absent : (keysymForKey key).getD 0 = 0
  · simp only [absent, if_true]
    exact strict_throw
  · simp only [absent, if_false]
    apply strict_bind (sound_keysymToKeycode setup _)
    exact fun keycode => sound_repeated (sound_x11Tap setup keycode)

theorem sound_portalPress (key : String) (count : UInt32) (delayMs : Option UInt64) :
    Sound (portalPress key count delayMs) := by
  by_cases absent : (keysymForKey key).getD 0 = 0
  · simp only [portalPress, absent, if_true]
    exact strict_throw
  · simp only [portalPress, absent, if_false]
    apply strict_bind sound_ensurePortalSession
    exact fun _ => sound_repeated (sound_portalTap _)

theorem sound_x11Hotkey (keys : List String) : Sound (x11Hotkey keys) := by
  apply strict_bind (sound_call _)
  intro setup
  apply strict_bind
  · apply strict_mapM
    intro key
    split
    · exact sound_keysymToKeycode setup _
    · exact strict_throw
  intro keycodes
  apply strict_bind (strict_forM fun keycode => sound_x11FakeInput setup 2 keycode)
  exact fun _ => strict_forM fun keycode => sound_x11FakeInput setup 3 keycode

theorem sound_portalHotkey (keys : List String) : Sound (portalHotkey keys) := by
  apply strict_bind sound_ensurePortalSession
  intro _
  apply strict_bind
  · apply strict_mapM
    intro key
    split
    · exact strict_pure
    · exact strict_throw
  intro keysyms
  apply strict_bind
  · exact strict_forM fun _ => sound_call _
  · exact fun _ => strict_forM fun _ => sound_call _

theorem sound_x11TypeCharacter (isUppercase : Char → Bool) (setup : Setup)
    (delayMs : Option UInt64) (ch : Char) :
    Sound (x11TypeCharacter isUppercase setup delayMs ch) := by
  -- Shift is looked up twice, before it is pressed and before it is released.
  have shift (type : UInt8) : Sound (do
      let shiftKeycode ← keysymToKeycode setup 0xffe1
      x11FakeInput setup type shiftKeycode) :=
    strict_bind (sound_keysymToKeycode setup _) fun keycode => sound_x11FakeInput setup type keycode
  apply strict_bind (sound_keysymToKeycode setup _)
  intro keycode
  apply strict_bind (strict_when (shift 2))
  intro _
  apply strict_bind (sound_x11FakeInput setup 2 keycode)
  intro _
  exact strict_bind (strict_when (shift 3)) fun _ => sound_pause delayMs

theorem sound_x11TypeText (isUppercase : Char → Bool) (text : String) (clear pressReturn : Bool)
    (delayMs : Option UInt64) : Sound (x11TypeText isUppercase text clear pressReturn delayMs) := by
  have cleared : Sound x11Clear :=
    strict_bind (sound_x11Hotkey _) fun _ => strict_bind (sound_sleep _) fun _ =>
      strict_bind (sound_x11Press _ _ _) fun _ => sound_sleep _
  apply strict_bind (strict_when cleared)
  intro _
  apply strict_bind (sound_call _)
  intro setup
  apply strict_bind (strict_forM fun ch => sound_x11TypeCharacter isUppercase setup delayMs ch)
  intro _
  apply strict_when
  exact strict_bind (sound_keysymToKeycode setup _) fun keycode => sound_x11Tap setup keycode

theorem sound_portalTypeText (text : String) (clear pressReturn : Bool)
    (delayMs : Option UInt64) : Sound (portalTypeText text clear pressReturn delayMs) := by
  have cleared : Sound portalClear :=
    strict_bind (sound_portalHotkey _) fun _ => strict_bind (sound_sleep _) fun _ =>
      strict_bind (sound_portalPress _ _ _) fun _ => sound_sleep _
  apply strict_bind (strict_when cleared)
  intro _
  apply strict_bind sound_ensurePortalSession
  intro _
  apply strict_bind
  · apply strict_forM
    exact fun ch => strict_bind (sound_portalTap _) fun _ => sound_pause delayMs
  intro _
  exact strict_when (sound_portalTap _)

theorem sound_x11Scroll (direction : Direction) (amount : UInt32) :
    Sound (x11Scroll direction amount) := by
  apply strict_bind (sound_call _)
  intro setup
  apply strict_forM
  exact fun _ => strict_bind (sound_x11FakeInput setup 4 _) fun _ => sound_x11FakeInput setup 5 _

theorem sound_portalScroll (direction : Direction) (amount : UInt32) :
    Sound (portalScroll direction amount) :=
  strict_bind sound_ensurePortalSession fun _ => sound_call _

theorem sound_x11Click (point : NativePoint) (button : MouseButton) :
    Sound (x11Click point button) :=
  strict_bind (sound_call _) fun _ => strict_bind (sound_call _) fun _ =>
    strict_bind (sound_call _) fun _ => strict_bind (sound_call _) fun _ => sound_call _

theorem sound_portalClick (button : MouseButton) : Sound (portalClick button) :=
  strict_bind sound_ensurePortalSession fun _ => strict_bind (sound_call _) fun _ => sound_call _

theorem sound_x11Move (point : NativePoint) : Sound (x11Move point) :=
  strict_bind (sound_call _) fun _ => strict_bind (sound_call _) fun _ => sound_call _

theorem sound_portalMove (point : NativePoint) : Sound (portalMove point) :=
  strict_bind sound_ensurePortalSession fun _ => sound_call _

/-- An operation is sound if it is in both sessions. -/
theorem sound_session {env : SessionEnvironment} {x11 wayland : InputM Unit} (onX11 : Sound x11)
    (onWayland : Sound wayland) :
    Sound (match sessionType env with
      | .x11 => x11
      | .wayland => wayland
      | .unknown => throw ⟨⟩) := by
  cases sessionType env with
  | x11 => exact onX11
  | wayland => exact onWayland
  | unknown => exact strict_throw

end

/-! ### Calls that fail with what they do -/

abbrev DeeplySound {α : Type} (x : LinuxM α) : Prop := Strict (fun e => deepWorked e = true) x

/-- Input is sound on the platform as it is by itself. -/
theorem sound_onInput {α : Type} {x : InputM α} (sound : Sound x) : DeeplySound (onInput x) := by
  intro trace value run
  obtain ⟨events, above, each⟩ := steps_rename _ run
  exact renamed_each (f := LinuxOp.input) (fun _ ans => ans) each (fun _ _ good => good)
    (sound events value above)

/-- A copy that succeeds is one program that succeeded. -/
theorem copyWith_ok {program text : String} {arguments : List String} {value : Unit}
    {trace : List (Event LinuxDesktop)}
    (run : Steps (copyWith program arguments text).run trace (.ret (.ok value))) :
    trace = [⟨.clipboard program arguments text, .ok true⟩] := by
  obtain ⟨before, succeeded, after, rfl, asked, later⟩ := steps_try_ok run
  obtain rfl := steps_ask.mp asked
  cases succeeded with
  | true =>
    obtain ⟨rfl, _⟩ := steps_ret.mp later
    rfl
  | false =>
    obtain ⟨_, same⟩ := steps_ret.mp later
    contradiction

theorem sound_copyWith (program : String) (arguments : List String) (text : String) :
    DeeplySound (copyWith program arguments text) := by
  intro trace value run
  rw [copyWith_ok run]
  exact List.forall_mem_singleton.mpr rfl

theorem sound_nativePaste (env : SessionEnvironment) (text : String) :
    DeeplySound (nativePaste env text) := by
  unfold nativePaste
  split
  · exact strict_throw
  -- The keys are pressed only after the text was copied.
  split
  · exact strict_bind (sound_copyWith _ _ text) fun _ => sound_onInput (sound_x11Hotkey _)
  · exact strict_bind (sound_copyWith _ _ text) fun _ => sound_onInput (sound_portalHotkey _)
  · exact strict_throw

/-- A call that succeeds has done all it began. -/
theorem sound_nativeInput (env : SessionEnvironment) (isUppercase : Char → Bool)
    (call : Native.InputCall) : DeeplySound (nativeInput env isUppercase call) := by
  cases call with
  | click point button =>
    simp only [nativeInput]
    split
    next chosen _ =>
      exact sound_onInput (sound_session (sound_x11Click point chosen) (sound_portalClick chosen))
    next => exact strict_throw
  | moveCursor point =>
    exact sound_onInput (sound_session (sound_x11Move point) (sound_portalMove point))
  | typeText text clear pressReturn delayMs =>
    apply sound_onInput
    unfold nativeTypeText
    split
    · exact strict_throw
    · exact sound_session (sound_x11TypeText isUppercase text clear pressReturn delayMs)
        (sound_portalTypeText text clear pressReturn delayMs)
  | press key count delayMs =>
    apply sound_onInput
    unfold nativePress
    split
    · exact strict_throw
    · exact sound_session (sound_x11Press key count delayMs) (sound_portalPress key count delayMs)
  | paste text => exact sound_nativePaste env text
  | hotkey keys =>
    apply sound_onInput
    unfold nativeHotkey
    split
    · exact strict_throw
    · exact sound_session (sound_x11Hotkey keys) (sound_portalHotkey keys)
  | scroll direction amount =>
    apply sound_onInput
    unfold nativeScroll
    split
    · exact strict_throw
    · exact sound_session (sound_x11Scroll direction amount) (sound_portalScroll direction amount)

/-! ### Steps of a dispatch -/

section

variable {env : SessionEnvironment} {isUppercase : Char → Bool} {bit : Atspi.State → UInt64}
  {bus : Atspi.Bus} {build : Build}

/-- The questions of a dispatch that are asked as they are. -/
def isPlain : DesktopOp → Bool
  | .input _ | .deed _ | .semantic _ => false
  | _ => true

theorem plain_steps {op : DesktopOp} {answer : op.Answer} {piece : List (Event LinuxDesktop)}
    (plain : isPlain op = true)
    (run : Steps (answers env isUppercase bit bus build op) piece (.ret answer)) :
    piece = [⟨.desktop op, answer⟩] := by
  have asked : answers env isUppercase bit bus build op = .ask (.desktop op) .ret := by
    cases op with
    | input | deed | semantic => exact absurd plain Bool.false_ne_true
    | _ => rfl
  rw [asked] at run
  cases run with
  | step answer' run =>
    obtain ⟨rfl, same⟩ := steps_ret.mp run
    rw [same]

theorem idle_answers {op : DesktopOp} (idle : work.Idle op) :
    (answers env isUppercase bit bus build op).Only deepWork.Idle := by
  cases op with
  | input | deed | semantic => exact absurd idle.symm Bool.false_ne_true
  | _ => exact ⟨idle, fun _ => trivial⟩

/-- A step that worked above did all its work below. -/
theorem worked_piece (e : Event Desktop) (piece : List (Event LinuxDesktop))
    (step : work.isStep e.op = true) (done : work.worked e = true)
    (answered : Steps (answers env isUppercase bit bus build e.op) piece (.ret e.ans)) :
    ∀ e' ∈ deepWork.taken piece, deepWork.worked e' = true := by
  obtain ⟨op, answer⟩ := e
  by_cases plain : isPlain op = true
  · obtain rfl := plain_steps plain answered
    intro e' member
    obtain rfl := List.mem_singleton.mp (List.mem_filter.mp member).1
    exact done
  · intro e' member
    obtain ⟨member, deepStep⟩ := List.mem_filter.mp member
    -- A deed always fails here, so that none has worked.
    cases op with
    | input call =>
      cases answer with
      | error _ => exact absurd done Bool.false_ne_true
      | ok _ => exact sound_nativeInput env isUppercase call piece () answered e' member
    | deed call =>
      obtain ⟨rfl, _⟩ := steps_ret.mp answered
      exact absurd member List.not_mem_nil
    | semantic call =>
      cases answer with
      | error _ => exact absurd done Bool.false_ne_true
      | ok told =>
        obtain ⟨events, above, each⟩ := steps_rename _ answered
        obtain ⟨_, effect, only, _⟩ := upholds_run Atspi.upholds_semantic rfl above
        -- The call has asked for one effect, which came about.
        have accepted : ∀ e ∈ events, Atspi.isEffect e.op = true → Atspi.accepted e = true := by
          intro e known asked
          have taken : e ∈ Atspi.effectWork.taken events := List.mem_filter.mpr ⟨known, asked⟩
          obtain rfl := List.mem_singleton.mp (only ▸ taken)
          rfl
        have whole : ∀ e' ∈ piece, isDeepStep e'.op = true → deepWorked e' = true :=
          renamed_each (f := LinuxOp.accessibility) (fun _ ans => ans) each
            (fun _ _ good => good) accepted
        exact whole e' member deepStep
    | _ => exact absurd rfl plain

/-- A semantic call whose error does not leave the effect open has not asked for it. -/
theorem untouched_piece {call : SemanticCall} {error : DispatchError}
    {piece : List (Event LinuxDesktop)} (known : error.effect ≠ .unknown)
    (answered : Steps (answers env isUppercase bit bus build (.semantic call)) piece
      (.ret (.error error))) : deepWork.taken piece = [] := by
  obtain ⟨events, above, each⟩ := steps_rename _ answered
  rcases upholds_run Atspi.upholds_semantic rfl above with ⟨_, unchanged⟩ | ⟨unknown, _⟩
  · apply List.filter_eq_nil_iff.mpr
    exact renamed_each (f := LinuxOp.accessibility) (fun _ ans => ans) each (fun _ _ none => none)
      (List.filter_eq_nil_iff.mp unchanged)
  · exact absurd unknown known

/-! ### Two presses on the X server -/

/-- A desktop with that keyboard, and with a button that can be clicked. -/
def pressingLinux : (op : LinuxOp) → LinuxDesktop.Ans op
  | .desktop op => pressingDesktop op
  | .input op => (usServer.respond op ()).1
  | .clipboard .. => .ok true
  | .accessibility op => Atspi.buttonAnswer op

def pressOnX11 : Prog LinuxDesktop (Except Fault DispatchReceipt) :=
  dispatch x11Session (fun _ => false) Atspi.stateBit Atspi.chainBus (benchBuild .interactive)
    1000 0 (.press "a" 2 none) (.semantic benchTarget) .none

theorem pressOnX11_run : ∃ past : List (Event LinuxDesktop),
    (∀ e ∈ past, e.ans = pressingLinux e.op) ∧
      Steps pressOnX11 past (.ret (.ok ⟨"praefectus-linux", []⟩)) := by
  have told (op : LinuxOp) :
      (⟨op, pressingLinux op⟩ : Event LinuxDesktop).ans = pressingLinux op := rfl
  obtain ⟨past, answered, run⟩ := @steps_answered LinuxDesktop _ pressingLinux
    (fun e => e.ans = pressingLinux e.op) told pressOnX11
  have result : pressOnX11.answered pressingLinux = .ok ⟨"praefectus-linux", []⟩ := by
    decide +kernel
  exact ⟨past, answered, result ▸ run⟩

/-! ### Every dispatch, with what its calls do -/

variable {deadlineAtMs : Int64} {action : Action} {target : ResolvedTarget}
  {verification : VerificationPolicy} {deliveryPid : Int32} {past : List (Event LinuxDesktop)}

/-- **What is said of the effect, on Linux**: a dispatch succeeds only if every request, every
copy and every effect of its calls has worked. If its error does not leave the effect open, no
key or button was touched, nothing was copied and no effect was asked for. -/
theorem linux_dispatch_tells {result : Except Fault DispatchReceipt}
    (run : Steps (dispatch env isUppercase bit bus build deadlineAtMs deliveryPid action target
      verification) past (.ret result)) :
    (∀ receipt, result = .ok receipt → ∀ e ∈ deepWork.taken past, deepWork.worked e = true) ∧
    ∀ error, result = .error (.error error) → error.effect ≠ .unknown →
      deepWork.taken past = [] := by
  obtain ⟨events, above, refined⟩ := steps_handle.mp run
  have verdict := upholds_run carries_dispatch Steppers.progress_nil above
  constructor
  · rintro receipt rfl
    obtain ⟨plan, _, _, progress⟩ := verdict
    exact Steppers.worked_refined (fun _ => idle_answers) worked_piece refined progress.worked
  · rintro error rfl known
    -- Above, nothing was called, or the error is that of the only call.
    rcases verdict error rfl known with none | ⟨e, only, refused⟩
    · exact Steppers.taken_refined_nil (fun _ => idle_answers) refined none
    · obtain ⟨piece, answered, same⟩ :=
        Steppers.taken_refined_only (fun _ => idle_answers) refined only
      rw [same]
      obtain ⟨op, answer⟩ := e
      cases op with
      | deed call =>
        -- No deed does anything here.
        obtain ⟨rfl, _⟩ := steps_ret.mp answered
        rfl
      | semantic call =>
        cases answer with
        | ok _ => exact refused.elim
        | error e =>
          obtain rfl : e = error := refused
          exact untouched_piece known answered
      | _ => exact refused.elim

theorem linux_dispatch_tells_press :
    ∃ past, Steps pressOnX11 past (.ret (.ok ⟨"praefectus-linux", []⟩)) ∧
      ∀ e ∈ deepWork.taken past, deepWork.worked e = true := by
  obtain ⟨past, _, run⟩ := pressOnX11_run
  exact ⟨past, run, (linux_dispatch_tells run).1 _ rfl⟩

end

end Praefectus.Linux
