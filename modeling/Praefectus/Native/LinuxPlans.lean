import Praefectus.Native.LinuxDispatch

/-!
# Keys and buttons of a dispatch on Linux

A call of the backend says which keys and buttons it presses and releases and where it moves the
pointer. A dispatch that succeeds has done what the calls of its plan say, in their order, and
nothing else.
-/

namespace Praefectus.Linux

open Prog Native

/-! ### What a call says -/

def x11Key (server : Server) (key : String) : Control := server.key ((keysymForKey key).getD 0)

def portalKey (key : String) : Control := .keysym ((keysymForKey key).getD 0)

def pasteKeys : List String := ["ctrl", "v"]

def axisDeed (direction : Direction) (amount : UInt32) : Deed :=
  let step : Int := 10 * amount.toNat
  match direction with
  | .up => .axis 0 (-step)
  | .down => .axis 0 step
  | .left => .axis (-step) 0
  | .right => .axis step 0

def x11Deeds (server : Server) (isUppercase : Char → Bool) : Native.InputCall → List Deed
  | .click point button => .warp point.x.toInt16 point.y.toInt16 ::
      tapped (.button (x11Button ((buttonOf button).getD .left)))
  | .moveCursor point => [.warp point.x.toInt16 point.y.toInt16]
  | .typeText text clear pressReturn _ => (if clear then x11Cleared server else []) ++
      text.toList.flatMap (x11Typed server isUppercase) ++
      if pressReturn then tapped (server.key 0xff0d) else []
  | .press key count _ => (List.range count.toNat).flatMap fun _ => tapped (x11Key server key)
  | .paste _ => chordOf (pasteKeys.map (x11Key server))
  | .hotkey keys => chordOf (keys.map (x11Key server))
  -- Each turn of the wheel presses one button and releases the opposite one.
  | .scroll direction amount => (List.range amount.toNat).flatMap fun _ =>
      pressed (.button (scrollButtons direction).1) ++
        released (.button (scrollButtons direction).2)

/-- The portal clicks where the pointer is. -/
def portalDeeds : Native.InputCall → List Deed
  | .click _ button => tapped (.evdevButton (evdevButton ((buttonOf button).getD .left)))
  | .moveCursor point => [.motion (toF64 point.x.toInt) (toF64 point.y.toInt)]
  | .typeText text clear pressReturn _ => (if clear then portalCleared else []) ++
      text.toList.flatMap (fun ch => tapped (.keysym (characterToKeysym ch))) ++
      if pressReturn then tapped (.keysym 0xff0d) else []
  | .press key count _ => (List.range count.toNat).flatMap fun _ => tapped (portalKey key)
  | .paste _ => chordOf (pasteKeys.map portalKey)
  | .hotkey keys => chordOf (keys.map portalKey)
  | .scroll direction amount => [axisDeed direction amount]

section

variable (env : SessionEnvironment) (server : Server) (isUppercase : Char → Bool)

def callDeeds (call : Native.InputCall) : List Deed :=
  match sessionType env with
  | .x11 => x11Deeds server isUppercase call
  | .wayland => portalDeeds call
  | .unknown => []

/-- Only a call of the backend touches the keyboard or the pointer. -/
def opDeeds : DesktopOp → List Deed
  | .input call => callDeeds env server isUppercase call
  | _ => []

end

/-! ### What a history did -/

/-- The keys, the buttons and the pointer of the platform. -/
def platform (known : Option Server) : Emitter LinuxDesktop Deed where
  serves
    | ⟨.input op, answer⟩ => (desktop known).serves ⟨op, answer⟩
    | _ => True
  emit
    | ⟨.input op, _⟩ => deedsOf op
    | _ => []

section

variable {known : Option Server} {server : Server} {env : SessionEnvironment}
  {isUppercase : Char → Bool}

/-- Input does on the platform what it does by itself. -/
theorem yields_onInput {α : Type} {x : InputM α} {Q : List Deed → α → Prop}
    (yields : Yields (desktop known) Q x) : Yields (platform known) Q (onInput x) := by
  intro trace value served run
  obtain ⟨events, above, each⟩ := steps_rename _ run
  -- An event below has the answer and the deeds of the one above.
  have both : (∀ e ∈ events, (desktop known).serves e) ∧
      (platform known).events trace = (desktop known).events events := by
    clear above run
    induction each with
    | nil => exact ⟨List.forall_mem_nil _, rfl⟩
    | cons first _ ih =>
      obtain ⟨here, later⟩ := List.forall_mem_cons.mp served
      obtain ⟨answer, rfl, told⟩ := first
      obtain ⟨rest, same⟩ := ih later
      constructor
      · apply List.forall_mem_cons.mpr ⟨_, rest⟩
        subst told
        exact here
      · unfold Emitter.events at same ⊢
        rw [List.flatMap_cons, List.flatMap_cons, same]
        rfl
  rw [both.2]
  exact yields events value both.1 above

theorem emits_copyWith (program : String) (arguments : List String) (text : String) :
    Emits (platform known) [] (copyWith program arguments text) := by
  intro trace value _ run
  rw [copyWith_ok run]
  rfl

/-- A chord of keys that the server has. -/
theorem emits_x11Chord (keys : List String) :
    Emits (desktop (some server)) (chordOf (keys.map (x11Key server))) (x11Hotkey keys) := by
  refine yields_mono (yields_x11Hotkey keys) ?_
  rintro _ _ ⟨keycodes, has, rfl⟩
  congr 1
  induction has with
  | nil => rfl
  | cons first _ ih =>
    obtain ⟨keysym, named, found⟩ := first
    simp [ih, x11Key, named, Server.key_eq found]

theorem emits_portalChord (keys : List String) :
    Emits (desktop known) (chordOf (keys.map portalKey)) (portalHotkey keys) := by
  refine yields_mono (yields_portalHotkey keys) ?_
  rintro _ _ ⟨keysyms, named, rfl⟩
  congr 1
  induction named with
  | nil => rfl
  | cons first _ ih => simp [ih, portalKey, first]

theorem emits_portalScroll (direction : Direction) (amount : UInt32) :
    Emits (desktop known) [axisDeed direction amount] (portalScroll direction amount) := by
  cases direction <;>
    exact emits_bind emits_ensurePortalSession fun _ => emits_call (.notifyPointerAxis _ _)

/-! ### Every call -/

/-- A call does something only in a session of a known type. -/
theorem emits_inSession {call : Native.InputCall} {x11 wayland : InputM Unit}
    (onX11 : Emits (desktop (some server)) (x11Deeds server isUppercase call) x11)
    (onWayland : Emits (desktop (some server)) (portalDeeds call) wayland) :
    Emits (desktop (some server)) (callDeeds env server isUppercase call)
      (match sessionType env with
        | .x11 => x11
        | .wayland => wayland
        | .unknown => throw ⟨⟩) := by
  unfold callDeeds
  cases sessionType env with
  | x11 => exact onX11
  | wayland => exact onWayland
  | unknown => exact yields_throw

theorem emits_nativePaste (text : String) :
    Emits (platform (some server)) (callDeeds env server isUppercase (.paste text))
      (nativePaste env text) := by
  unfold nativePaste
  split
  · exact yields_throw
  unfold callDeeds
  cases sessionType env with
  | x11 =>
    exact emits_bind (emits_copyWith _ _ text) fun _ => yields_onInput (emits_x11Chord pasteKeys)
  | wayland =>
    exact emits_bind (emits_copyWith _ _ text) fun _ => yields_onInput (emits_portalChord pasteKeys)
  | unknown => exact yields_throw

/-- A call that succeeds has done what it says. -/
theorem emits_nativeInput (call : Native.InputCall) :
    Emits (platform (some server)) (callDeeds env server isUppercase call)
      (nativeInput env isUppercase call) := by
  cases call with
  | click point button =>
    simp only [nativeInput]
    split
    next chosen found =>
      apply yields_onInput
      apply emits_inSession
      · simpa only [x11Deeds, found, Option.getD_some] using emits_x11Click point chosen
      · simpa only [portalDeeds, found, Option.getD_some] using emits_portalClick chosen
    next => exact yields_throw
  | moveCursor point =>
    apply yields_onInput
    exact emits_inSession (emits_x11Move point) (emits_portalMove point)
  | typeText text clear pressReturn delayMs =>
    apply yields_onInput
    unfold nativeTypeText
    split
    · exact yields_throw
    apply emits_inSession
    · exact yields_mono (yields_x11TypeText text clear pressReturn delayMs)
        fun _ _ typed => typed.2.2
    · exact emits_portalTypeText text clear pressReturn delayMs
  | press key count delayMs =>
    apply yields_onInput
    unfold nativePress
    split
    · exact yields_throw
    apply emits_inSession
    · refine yields_mono (yields_x11Press key count delayMs) ?_
      rintro _ _ ⟨_, keycode, rfl, found, rfl⟩
      simp only [x11Deeds, x11Key, Server.key_eq found]
    · exact emits_portalPress key count delayMs
  | paste text => exact emits_nativePaste text
  | hotkey keys =>
    apply yields_onInput
    unfold nativeHotkey
    split
    · exact yields_throw
    exact emits_inSession (emits_x11Chord keys) (emits_portalChord keys)
  | scroll direction amount =>
    apply yields_onInput
    unfold nativeScroll
    split
    · exact yields_throw
    exact emits_inSession (emits_x11Scroll direction amount) (emits_portalScroll direction amount)

/-! ### Every dispatch -/

variable {bit : Atspi.State → UInt64} {bus : Atspi.Bus} {build : Build}

/-- A question that does nothing touches neither the keyboard nor the pointer. -/
theorem silent_answers {op : DesktopOp} (idle : work.Idle op) :
    (answers env isUppercase bit bus build op).Only
      fun op => ∀ answer, (platform known).emit ⟨op, answer⟩ = [] := by
  cases op with
  | input | deed | semantic => exact absurd idle.symm Bool.false_ne_true
  | _ => exact ⟨fun _ => rfl, fun _ => trivial⟩

/-- A step that worked has done what it says. -/
theorem emitted_piece (e : Event Desktop) (piece : List (Event LinuxDesktop))
    (_step : work.isStep e.op = true) (done : work.worked e = true)
    (answered : Steps (answers env isUppercase bit bus build e.op) piece (.ret e.ans))
    (served : ∀ e' ∈ piece, (platform (some server)).serves e') :
    piece.flatMap (platform (some server)).emit = opDeeds env server isUppercase e.op := by
  obtain ⟨op, answer⟩ := e
  by_cases plain : isPlain op = true
  · obtain rfl := plain_steps plain answered
    cases op with
    | input | deed | semantic => exact absurd plain Bool.false_ne_true
    | _ => rfl
  · cases op with
    | input call =>
      cases answer with
      | error _ => exact absurd done Bool.false_ne_true
      | ok _ => exact emits_nativeInput call piece () served answered
    | deed call =>
      obtain ⟨rfl, _⟩ := steps_ret.mp answered
      rfl
    | semantic call =>
      obtain ⟨events, _, each⟩ := steps_rename _ answered
      apply List.flatMap_eq_nil_iff.mpr
      -- Accessibility has no keys and no pointer.
      exact renamed_each (I := Atspi.EffectBus) (J := LinuxDesktop) (f := .accessibility)
        (fun _ ans => ans) (P := fun _ => True) each (fun _ _ _ => rfl) fun _ _ => trivial
    | _ => exact absurd rfl plain

theorem served_press : ∃ past, (∀ e ∈ past, (platform (some usServer)).serves e) ∧
    Steps pressOnX11 past (.ret (.ok ⟨"praefectus-linux", []⟩)) := by
  obtain ⟨past, told, run⟩ := pressOnX11_run
  refine ⟨past, ?_, run⟩
  rintro ⟨op, answer⟩ member
  obtain rfl : answer = pressingLinux op := told _ member
  cases op with
  | input op =>
    rintro _ ⟨⟩
    exact serves_respond usServer op ()
  | _ => trivial

variable {deadlineAtMs : Int64} {action : Action} {target : ResolvedTarget}
  {verification : VerificationPolicy} {deliveryPid : Int32} {past : List (Event LinuxDesktop)}
  {receipt : DispatchReceipt}

/-- **What was done to the keyboard and the pointer**: where the X server is the one it says it
is, a dispatch that succeeds has pressed, released and moved what the calls of a plan for its
action and its target say, one call after the other, and nothing else. -/
theorem linux_dispatch_deeds
    (run : Steps (dispatch env isUppercase bit bus build deadlineAtMs deliveryPid action target
      verification) past (.ret (.ok receipt)))
    (served : ∀ e ∈ past, (platform (some server)).serves e) :
    ∃ plan, IsPlan .linux deadlineAtMs action target plan ∧ plan ≠ [] ∧
      (platform (some server)).events past = plan.flatMap (opDeeds env server isUppercase) := by
  obtain ⟨events, above, refined⟩ := steps_handle.mp run
  obtain ⟨plan, isPlan, nonempty, progress⟩ :=
    upholds_run carries_dispatch Steppers.progress_nil above
  refine ⟨plan, isPlan, nonempty, ?_⟩
  have emitted := Steppers.emitted_refined (fun _ => silent_answers) emitted_piece refined served
    progress.worked
  rwa [progress.same] at emitted

theorem linux_dispatch_deeds_press :
    ∃ past, Steps pressOnX11 past (.ret (.ok ⟨"praefectus-linux", []⟩)) ∧
      ∃ plan, IsPlan .linux 1000 (.press "a" 2 none) (.semantic benchTarget) plan ∧ plan ≠ [] ∧
        (platform (some usServer)).events past =
          plan.flatMap (opDeeds x11Session usServer fun _ => false) := by
  obtain ⟨past, served, run⟩ := served_press
  exact ⟨past, run, linux_dispatch_deeds run served⟩

end

end Praefectus.Linux
