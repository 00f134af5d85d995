import Praefectus.Native.LinuxInput
import Praefectus.Program.Emissions
import Praefectus.Program.Play
import Praefectus.Program.Strokes

/-!
# What input on Linux does

Each request that succeeds does something to the keyboard or the pointer, or nothing. For
every operation, the list of what a successful run of it does.
-/

namespace Praefectus.Linux

open Prog

/-! ### Deeds -/

/-- What can be pressed: keys and buttons of the X server, keysyms and buttons of the
portal. -/
inductive Control where
  | key (keycode : UInt8)
  | button (number : UInt8)
  | keysym (keysym : UInt32)
  | evdevButton (code : UInt32)
  deriving DecidableEq

inductive Deed where
  | stroke (stroke : Stroke Control)
  | warp (x y : Int16)
  | motion (dx dy : Int)
  | axis (dx dy : Int)
  deriving DecidableEq

/-- The event types of the XTEST extension. -/
def xtestDeeds (type detail : UInt8) : List Deed :=
  if type = 2 then [.stroke (.press (.key detail))]
  else if type = 3 then [.stroke (.release (.key detail))]
  else if type = 4 then [.stroke (.press (.button detail))]
  else if type = 5 then [.stroke (.release (.button detail))]
  else []

/-- The states of keys and buttons of the portal. -/
def stateDeeds (control : Control) (state : UInt32) : List Deed :=
  if state = 1 then [.stroke (.press control)]
  else if state = 0 then [.stroke (.release control)]
  else []

def deedsOf : InputOp → List Deed
  | .call (.xtestFakeInput type detail _ _ _) => xtestDeeds type detail
  | .call (.warpPointer _ x y) => [.warp x y]
  | .call (.notifyPointerMotion dx dy) => [.motion dx dy]
  | .call (.notifyPointerButton button state) => stateDeeds (.evdevButton button) state
  | .call (.notifyPointerAxis dx dy) => [.axis dx dy]
  | .call (.notifyKeyboardKeysym keysym state) => stateDeeds (.keysym keysym.toUInt32) state
  | _ => []

/-- An X server, with the keyboard mapping in force. -/
structure Server where
  setup : Setup
  mapping : KeyboardMapping
  deriving DecidableEq

def Server.keycode (server : Server) (keysym : UInt32) : Option UInt8 :=
  keycodeOf server.setup server.mapping keysym

/-- The answers of the server where it does not fail. -/
def Server.Serves (server : Server) : Event Input → Prop
  | ⟨.call .connect, ans⟩ => ∀ setup, ans = .ok setup → setup = server.setup
  | ⟨.call (.getKeyboardMapping _ _), ans⟩ => ∀ mapping, ans = .ok mapping → mapping = server.mapping
  | _ => True

/-- What the requests do, where the server is one that is known or any. -/
def desktop (known : Option Server) : Emitter Input Deed where
  serves e := ∀ server ∈ known, server.Serves e
  emit e := deedsOf e.op

/-- What a history of requests did. -/
def deeds (trace : List (Event Input)) : List Deed := trace.flatMap fun e => deedsOf e.op

def Deed.stroke? : Deed → Option (Stroke Control)
  | .stroke done => some done
  | _ => none

def strokesOf (deeds : List Deed) : List (Stroke Control) := deeds.filterMap Deed.stroke?

/-- The keys and buttons that a history of requests pressed and released. -/
def strokes (trace : List (Event Input)) : List (Stroke Control) := strokesOf (deeds trace)

/-! ### Requests -/

variable {known : Option Server} {server : Server}

theorem yields_call {request : InputCall} {Q : List Deed → request.Result → Prop}
    (each : ∀ value, (desktop known).serves ⟨.call request, .ok value⟩ →
      Q (deedsOf (.call request)) value) : Yields (desktop known) Q (call request) := by
  intro trace value served run
  obtain rfl := steps_ask.mp run
  have answered := each value (served _ List.mem_cons_self)
  simpa [Emitter.events, desktop] using answered

theorem emits_call (request : InputCall) :
    Emits (desktop known) (deedsOf (.call request)) (call request) :=
  yields_call fun _ _ => rfl

theorem yields_connect :
    Yields (desktop (some server)) (fun events setup => events = [] ∧ setup = server.setup)
      (call .connect) := by
  refine @yields_call (some server) .connect _ ?_
  intro setup served
  exact ⟨rfl, served server rfl setup rfl⟩

theorem emits_sleep (ms : UInt64) : Emits (desktop known) [] (sleep ms) := by
  refine @yields_lift Input NativeError Deed (desktop known) (.sleep ms) _ ?_
  intro _ _
  rfl

theorem emits_pause : ∀ delayMs : Option UInt64, Emits (desktop known) [] (pause delayMs)
  | none => emits_pure
  | some delay => emits_when_nil (emits_sleep delay)

/-- A session is opened without a key or a button. -/
theorem emits_ensurePortalSession : Emits (desktop known) [] ensurePortalSession := by
  have created : Emits (desktop known) [] portalCreateSession := by
    apply emits_bind (emits_call .createSession)
    intro reply
    split
    · exact emits_pure
    · exact yields_throw
  have accepted (reply : ReplyBody) : Emits (desktop known) [] (portalStatus reply) := by
    unfold portalStatus
    split
    · split
      · exact yields_throw
      · exact emits_pure
    · exact yields_throw
  have stored (session : PortalSession) :
      Emits (desktop known) [] (setPortalSession session) := by
    refine @yields_lift Input NativeError Deed (desktop known) (.setPortalSession session) _ ?_
    intro _ _
    rfl
  apply emits_bind (emits_call .lockPortalSession)
  intro held
  cases held with
  | some session => exact emits_pure
  | none =>
    -- None of the requests that open a session is a deed.
    apply emits_bind (emits_call .portalConnection)
    intro _
    apply emits_bind created
    intro session
    apply emits_bind (emits_bind (emits_call (.authorize session.handle)) accepted)
    intro _
    apply emits_bind (emits_bind (emits_call (.start session.handle)) accepted)
    intro _
    exact emits_bind (stored session) fun _ => emits_pure

theorem yields_keysymToKeycode (keysym : UInt32) :
    Yields (desktop (some server))
      (fun events keycode => events = [] ∧ server.keycode keysym = some keycode)
      (keysymToKeycode server.setup keysym) := by
  refine yields_bind (yields_call fun mapping served => ?_)
  obtain rfl := served server rfl mapping rfl
  split
  next offset found =>
    split
    next below =>
      refine yields_pure ⟨rfl, ?_⟩
      simp [Server.keycode, keycodeOf, found, below]
    next => exact yields_throw
  next => exact yields_throw

/-! ### Keys -/

def pressed (control : Control) : List Deed := [.stroke (.press control)]

def released (control : Control) : List Deed := [.stroke (.release control)]

def tapped (control : Control) : List Deed := [.stroke (.press control), .stroke (.release control)]

theorem emits_x11FakeInput (setup : Setup) (type detail : UInt8) :
    Emits (desktop known) (xtestDeeds type detail) (x11FakeInput setup type detail) := by
  have both := emits_bind (emits_call (.xtestFakeInput type detail setup.root 0 0))
    fun _ => @emits_call known .flush
  simp only [deedsOf, List.append_nil] at both
  exact both

theorem emits_x11Tap (setup : Setup) (keycode : UInt8) :
    Emits (desktop known) (tapped (.key keycode)) (x11Tap setup keycode) :=
  emits_bind (emits_x11FakeInput setup 2 keycode) fun _ => emits_x11FakeInput setup 3 keycode

theorem emits_portalKey (keysym : UInt32) :
    Emits (desktop known) (pressed (.keysym keysym))
        (call (.notifyKeyboardKeysym keysym.toInt32 1)) ∧
      Emits (desktop known) (released (.keysym keysym))
        (call (.notifyKeyboardKeysym keysym.toInt32 0)) := by
  have down := @emits_call known (.notifyKeyboardKeysym keysym.toInt32 1)
  have up := @emits_call known (.notifyKeyboardKeysym keysym.toInt32 0)
  simp [deedsOf, stateDeeds] at down up
  exact ⟨down, up⟩

theorem emits_portalTap (keysym : UInt32) :
    Emits (desktop known) (tapped (.keysym keysym)) (portalTap keysym) :=
  emits_bind (emits_portalKey keysym).1 fun _ => (emits_portalKey keysym).2

/-- The taps of a repeated key, with pauses between them. -/
theorem emits_repeated {tap : InputM Unit} {control : Control} {count : UInt32}
    {delayMs : Option UInt64} (once : Emits (desktop known) (tapped control) tap) :
    Emits (desktop known) ((List.range count.toNat).flatMap fun _ => tapped control)
      ((List.range count.toNat).forM fun i => do
        when (i > 0) (pause delayMs)
        tap) :=
  emits_forM fun _ _ => emits_bind (emits_when_nil (emits_pause delayMs)) fun _ => once

/-- The control that a key name stands for, and how often it is tapped. -/
theorem yields_x11Press (key : String) (count : UInt32) (delayMs : Option UInt64) :
    Yields (desktop (some server)) (fun events _ => ∃ keysym keycode, (keysymForKey key).getD 0 = keysym ∧
        server.keycode keysym = some keycode ∧
        events = (List.range count.toNat).flatMap fun _ => tapped (.key keycode))
      (x11Press key count delayMs) := by
  refine yields_bind (yields_mono yields_connect ?_)
  rintro _ _ ⟨rfl, rfl⟩
  by_cases absent : (keysymForKey key).getD 0 = 0
  · simp only [absent, if_true]
    exact yields_throw
  · simp only [absent, if_false]
    refine yields_bind (yields_mono (yields_keysymToKeycode _) ?_)
    rintro _ keycode ⟨rfl, found⟩
    refine yields_mono (emits_repeated (emits_x11Tap server.setup keycode)) ?_
    rintro _ _ rfl
    exact ⟨_, keycode, rfl, found, rfl⟩

theorem emits_portalPress (key : String) (count : UInt32) (delayMs : Option UInt64) :
    Emits (desktop known)
      ((List.range count.toNat).flatMap fun _ => tapped (.keysym ((keysymForKey key).getD 0)))
      (portalPress key count delayMs) := by
  by_cases absent : (keysymForKey key).getD 0 = 0
  · simp only [portalPress, absent, if_true]
    exact yields_throw
  · simp only [portalPress, absent, if_false]
    refine emits_bind (emits_ensurePortalSession) fun _ => ?_
    exact emits_repeated (emits_portalTap _)

theorem keysymForKey_ctrl : keysymForKey "ctrl" = some 0xffe3 := by decide

theorem keysymForKey_a : keysymForKey "a" = some 0x61 := by decide

/-- The table of names is in lower case, so this one stands for its first letter. -/
theorem keysymForKey_backSpace : keysymForKey "BackSpace" = some 0x42 := by decide

/-- Presses in order and releases in reverse order. -/
def chordOf (controls : List Control) : List Deed := (Stroke.chord controls).map .stroke

/-- A loop that presses and a loop that releases. -/
theorem emits_chord {α : Type} {control : α → Control} {press release : α → InputM Unit}
    (items : List α) (down : ∀ item, Emits (desktop known) (pressed (control item)) (press item))
    (up : ∀ item, Emits (desktop known) (released (control item)) (release item)) :
    Emits (desktop known) (chordOf (items.map control))
      (do items.forM press; items.reverse.forM release) := by
  have presses := @emits_forM _ _ _ _ _ _ _ items fun item _ => down item
  have releases := @emits_forM _ _ _ _ _ _ _ items.reverse fun item _ => up item
  have both := emits_bind presses fun _ => releases
  simp only [pressed, released, ← List.map_eq_flatMap] at both
  simpa [chordOf, Stroke.chord, Function.comp_def] using both

/-- The keysym of a key name and the keycode it has. -/
def Server.HasKey (server : Server) (key : String) (keycode : UInt8) : Prop :=
  ∃ keysym, keysymForKey key = some keysym ∧ server.keycode keysym = some keycode

theorem yields_x11Hotkey (keys : List String) :
    Yields (desktop (some server)) (fun events _ => ∃ keycodes, List.Forall₂ server.HasKey keys keycodes ∧
        events = chordOf (keycodes.map .key))
      (x11Hotkey keys) := by
  refine yields_bind (yields_mono yields_connect ?_)
  rintro _ _ ⟨rfl, rfl⟩
  refine yields_bind (yields_mono (yields_mapM (R := server.HasKey) fun key _ => ?_) ?_)
  · cases found : keysymForKey key with
    | none => exact yields_throw
    | some keysym =>
      refine yields_mono (yields_keysymToKeycode keysym) ?_
      rintro _ keycode ⟨rfl, has⟩
      exact ⟨rfl, keysym, found, has⟩
  rintro _ keycodes ⟨rfl, has⟩
  have both := @emits_chord (some server) _ .key _ _ keycodes (emits_x11FakeInput server.setup 2)
    (emits_x11FakeInput server.setup 3)
  refine yields_mono both ?_
  rintro _ _ rfl
  exact ⟨keycodes, has, rfl⟩

theorem yields_portalHotkey (keys : List String) :
    Yields (desktop known) (fun events _ => ∃ keysyms,
        List.Forall₂ (fun key keysym => keysymForKey key = some keysym) keys keysyms ∧
        events = chordOf (keysyms.map .keysym))
      (portalHotkey keys) := by
  refine yields_bind (yields_mono (emits_ensurePortalSession) ?_)
  rintro _ _ rfl
  refine yields_bind (yields_mono (yields_mapM
    (R := fun key keysym => keysymForKey key = some keysym) fun key _ => ?_) ?_)
  · split
    next keysym found => exact yields_pure ⟨rfl, found⟩
    next => exact yields_throw
  rintro _ keysyms ⟨rfl, has⟩
  have both := @emits_chord known _ _ _ _ keysyms (fun keysym => (emits_portalKey keysym).1)
    fun keysym => (emits_portalKey keysym).2
  refine yields_mono both ?_
  rintro _ _ rfl
  exact ⟨keysyms, has, rfl⟩

/-! ### Typing -/

section Typing

variable {isUppercase : Char → Bool}

/-- The key of a keysym that has one. -/
def Server.key (server : Server) (keysym : UInt32) : Control :=
  .key ((server.keycode keysym).getD 0)

theorem Server.key_eq {keysym : UInt32} {keycode : UInt8}
    (found : server.keycode keysym = some keycode) : server.key keysym = .key keycode := by
  rw [Server.key, found, Option.getD_some]

/-- The character has a key, and so has shift where it is needed. -/
def CanType (server : Server) (isUppercase : Char → Bool) (ch : Char) : Prop :=
  (server.keycode (characterToKeysym ch)).isSome ∧
    (needsShift isUppercase ch → (server.keycode 0xffe1).isSome)

/-- A character of the X server is pressed and not released. -/
def x11Typed (server : Server) (isUppercase : Char → Bool) (ch : Char) : List Deed :=
  if needsShift isUppercase ch then
    pressed (server.key 0xffe1) ++ pressed (server.key (characterToKeysym ch)) ++
      released (server.key 0xffe1)
  else pressed (server.key (characterToKeysym ch))

theorem yields_x11Shift (type : UInt8) :
    Yields (desktop (some server)) (fun events _ => (server.keycode 0xffe1).isSome ∧
        events = xtestDeeds type ((server.keycode 0xffe1).getD 0))
      (do x11FakeInput server.setup type (← keysymToKeycode server.setup 0xffe1)) := by
  refine yields_bind (yields_mono (yields_keysymToKeycode _) ?_)
  rintro _ keycode ⟨rfl, found⟩
  refine yields_mono (emits_x11FakeInput server.setup type keycode) ?_
  rintro _ _ rfl
  simp [found]

theorem yields_x11TypeCharacter (delayMs : Option UInt64) (ch : Char) :
    Yields (desktop (some server))
      (fun events _ => CanType server isUppercase ch ∧ events = x11Typed server isUppercase ch)
      (x11TypeCharacter isUppercase server.setup delayMs ch) := by
  refine yields_bind (yields_mono (yields_keysymToKeycode _) ?_)
  rintro _ keycode ⟨rfl, found⟩
  have waits : Emits (desktop (some server)) [] (pause delayMs) := emits_pause delayMs
  have typed : Emits (desktop (some server)) (pressed (.key keycode))
    (x11FakeInput server.setup 2 keycode) := emits_x11FakeInput server.setup 2 keycode
  by_cases shifted : needsShift isUppercase ch = true
  · simp only [when, shifted, if_true]
    refine yields_bind (yields_mono (yields_x11Shift 2) ?_)
    rintro _ _ ⟨hasShift, rfl⟩
    refine yields_mono (emits_bind typed fun _ =>
      emits_bind (yields_mono (yields_x11Shift 3) fun _ _ both => both.2) fun _ => waits) ?_
    rintro _ _ rfl
    refine ⟨⟨by simp [found], fun _ => hasShift⟩, ?_⟩
    simp [x11Typed, shifted, pressed, released, Server.key, found, xtestDeeds]
  · simp only [when, shifted]
    refine yields_mono (emits_bind emits_pure fun _ =>
      emits_bind typed fun _ => emits_bind emits_pure fun _ => waits) ?_
    rintro _ _ rfl
    refine ⟨⟨by simp [found], fun needed => absurd needed shifted⟩, ?_⟩
    simp [x11Typed, shifted, pressed, Server.key, found]

/-- What clearing does: select all, and a tap of the key for the letter B. -/
def x11Cleared (server : Server) : List Deed :=
  chordOf [server.key 0xffe3, server.key 0x61] ++ tapped (server.key 0x42)

def portalCleared : List Deed :=
  chordOf [.keysym 0xffe3, .keysym 0x61] ++ tapped (.keysym 0x42)

/-- The keys of clearing are there. -/
def CanClear (server : Server) : Prop :=
  (server.keycode 0xffe3).isSome ∧ (server.keycode 0x61).isSome ∧ (server.keycode 0x42).isSome

theorem yields_x11Clear :
    Yields (desktop (some server)) (fun events _ => CanClear server ∧ events = x11Cleared server)
      x11Clear := by
  refine yields_bind (yields_mono (yields_x11Hotkey ["ctrl", "a"]) ?_)
  rintro _ _ ⟨keycodes, has, rfl⟩
  refine yields_bind (yields_mono (emits_sleep 10) ?_)
  rintro _ _ rfl
  refine yields_bind (yields_mono (yields_x11Press "BackSpace" 1 none) ?_)
  rintro _ _ ⟨keysym, keycode, named, found, rfl⟩
  refine yields_mono (emits_sleep 10) ?_
  rintro _ _ rfl
  rw [keysymForKey_backSpace] at named
  obtain rfl : (0x42 : UInt32) = keysym := named
  rcases has with _ | ⟨⟨_, named, ctrl⟩, _ | ⟨⟨_, named', a⟩, _ | _⟩⟩
  rw [keysymForKey_ctrl] at named
  rw [keysymForKey_a] at named'
  obtain rfl := Option.some.inj named
  obtain rfl := Option.some.inj named'
  refine ⟨⟨by simp [ctrl], by simp [a], by simp [found]⟩, ?_⟩
  simp [x11Cleared, Server.key, ctrl, a, found]

theorem emits_portalClear : Emits (desktop known) portalCleared portalClear := by
  refine yields_bind (yields_mono (yields_portalHotkey ["ctrl", "a"]) ?_)
  rintro _ _ ⟨keysyms, named, rfl⟩
  refine yields_mono (emits_bind (emits_sleep 10) fun _ =>
    emits_bind (emits_portalPress "BackSpace" 1 none) fun _ => emits_sleep 10) ?_
  rintro _ _ rfl
  rw [keysymForKey_backSpace]
  rcases named with _ | ⟨ctrl, _ | ⟨a, _ | _⟩⟩
  rw [keysymForKey_ctrl] at ctrl
  rw [keysymForKey_a] at a
  obtain rfl := Option.some.inj ctrl
  obtain rfl := Option.some.inj a
  simp [portalCleared]

/-- What typing does: the clearing, the characters, the return key. -/
theorem yields_x11TypeText (text : String) (clear pressReturn : Bool) (delayMs : Option UInt64) :
    Yields (desktop (some server))
      (fun events _ => (∀ ch ∈ text.toList, CanType server isUppercase ch) ∧
        (clear → CanClear server) ∧
        events = (if clear then x11Cleared server else []) ++
          text.toList.flatMap (x11Typed server isUppercase) ++
          if pressReturn then tapped (server.key 0xff0d) else [])
      (x11TypeText isUppercase text clear pressReturn delayMs) := by
  have clears : Yields (desktop (some server)) (fun events _ => (clear → CanClear server) ∧
      events = if clear then x11Cleared server else []) (when clear x11Clear) := by
    refine yields_when (fun cleared => ?_) fun kept => by simp [kept]
    refine yields_mono yields_x11Clear ?_
    rintro _ _ ⟨can, rfl⟩
    simp [cleared, can]
  have types := @yields_forM _ _ _ _ (desktop (some server))
    (x11TypeCharacter isUppercase server.setup delayMs)
    (fun done past => (∀ ch ∈ done, CanType server isUppercase ch) ∧
      past = done.flatMap (x11Typed server isUppercase)) [] text.toList [] (by simp)
    fun done ch past _ before => yields_mono (yields_x11TypeCharacter delayMs ch) <| by
      rintro _ _ ⟨can, rfl⟩
      simpa [before.2, or_imp, forall_and, can] using before.1
  have returns : Emits (desktop (some server)) (if pressReturn then tapped (server.key 0xff0d) else [])
      (when pressReturn do x11Tap server.setup (← keysymToKeycode server.setup 0xff0d)) := by
    refine emits_when fun _ => emits_after (yields_keysymToKeycode 0xff0d) fun keycode found => ?_
    rw [Server.key_eq found]
    exact emits_x11Tap server.setup keycode
  refine yields_bind (yields_mono clears ?_)
  rintro _ _ ⟨canClear, rfl⟩
  refine yields_bind (yields_mono yields_connect ?_)
  rintro _ _ ⟨rfl, rfl⟩
  refine yields_bind (yields_mono types ?_)
  rintro events _ ⟨canType, same⟩
  rw [List.nil_append] at canType same
  refine yields_mono returns ?_
  rintro _ _ rfl
  exact ⟨canType, canClear, by simp [same]⟩

/-- Through the portal every character is tapped. -/
theorem emits_portalTypeText (text : String) (clear pressReturn : Bool)
    (delayMs : Option UInt64) :
    Emits (desktop known)
      ((if clear then portalCleared else []) ++
        text.toList.flatMap (fun ch => tapped (.keysym (characterToKeysym ch))) ++
        if pressReturn then tapped (.keysym 0xff0d) else [])
      (portalTypeText text clear pressReturn delayMs) := by
  have clears := emits_when fun _ : clear = true => @emits_portalClear known
  have types := @emits_forM _ _ _ _ (desktop known) (portalTypeCharacter delayMs) _ text.toList
    fun ch _ => emits_bind (emits_portalTap (characterToKeysym ch)) fun _ => emits_pause delayMs
  have returns := emits_when fun _ : pressReturn = true => @emits_portalTap known 0xff0d
  have whole := emits_bind clears fun _ => emits_bind (emits_ensurePortalSession)
    fun _ => emits_bind types fun _ => returns
  simp only [List.append_nil, List.nil_append] at whole
  rw [List.append_assoc]
  exact whole

end Typing

/-! ### The pointer -/

theorem emits_x11Click (point : NativePoint) (button : MouseButton) :
    Emits (desktop known)
      (.warp point.x.toInt16 point.y.toInt16 :: tapped (.button (x11Button button)))
      (x11Click point button) :=
  emits_bind (emits_call .connect) fun _ => emits_bind (emits_call _) fun _ =>
    emits_bind (emits_call _) fun _ => emits_bind (emits_call _) fun _ => emits_call .flush

theorem emits_portalClick (button : MouseButton) :
    Emits (desktop known) (tapped (.evdevButton (evdevButton button))) (portalClick button) :=
  emits_bind emits_ensurePortalSession fun _ => emits_bind (emits_call _) fun _ =>
    emits_call (.notifyPointerButton (evdevButton button) 0)

theorem emits_x11Move (point : NativePoint) :
    Emits (desktop known) [.warp point.x.toInt16 point.y.toInt16] (x11Move point) :=
  emits_bind (emits_call .connect) fun _ => emits_bind (emits_call _) fun _ => emits_call .flush

theorem emits_portalMove (point : NativePoint) :
    Emits (desktop known) [.motion (toF64 point.x.toInt) (toF64 point.y.toInt)]
      (portalMove point) :=
  emits_bind emits_ensurePortalSession fun _ =>
    emits_call (.notifyPointerMotion (toF64 point.x.toInt) (toF64 point.y.toInt))

/-- Each step presses one button and releases another. -/
theorem emits_x11Scroll (direction : Direction) (amount : UInt32) :
    Emits (desktop known)
      ((List.range amount.toNat).flatMap fun _ =>
        pressed (.button (scrollButtons direction).1) ++
          released (.button (scrollButtons direction).2))
      (x11Scroll direction amount) :=
  emits_bind (emits_call .connect) fun setup => emits_forM fun _ _ =>
    emits_bind (emits_x11FakeInput setup 4 _) fun _ => emits_x11FakeInput setup 5 _

/-- The portal scrolls without buttons. -/
theorem yields_portalScroll (direction : Direction) (amount : UInt32) :
    Yields (desktop known) (fun events _ => ∃ dx dy, events = [.axis dx dy])
      (portalScroll direction amount) := by
  refine yields_bind (yields_mono (emits_ensurePortalSession) ?_)
  rintro _ _ rfl
  refine yields_mono (emits_call (.notifyPointerAxis _ _)) ?_
  rintro _ _ rfl
  exact ⟨_, _, rfl⟩

/-! ### Sessions -/

/-- An operation does something only in a session of a known type. -/
theorem yields_session {env : SessionEnvironment} {x11 wayland : InputM Unit}
    {Q : List Deed → Unit → Prop} (onX11 : sessionType env = .x11 → Yields (desktop known) Q x11)
    (onWayland : sessionType env = .wayland → Yields (desktop known) Q wayland) :
    Yields (desktop known) Q (match sessionType env with
      | .x11 => x11
      | .wayland => wayland
      | .unknown => throw ⟨⟩) := by
  split
  next session => exact onX11 session
  next session => exact onWayland session
  next => exact yields_throw

/-! ### A server that never fails -/

/-- A server answers every request and lets no deadline pass. -/
def Server.respond (server : Server) : (op : InputOp) → Unit → Input.Ans op × Unit
  | .call .connect, s => (.ok server.setup, s)
  | .call (.getKeyboardMapping _ _), s => (.ok server.mapping, s)
  | .call (.xtestFakeInput ..), s | .call (.warpPointer ..), s | .call .flush, s
  | .call .portalConnection, s | .call (.notifyPointerMotion ..), s
  | .call (.notifyPointerButton ..), s | .call (.notifyPointerAxis ..), s
  | .call (.notifyKeyboardKeysym ..), s => (.ok (), s)
  | .call .lockPortalSession, s => (.ok none, s)
  | .call .createSession, s => (.ok (.uasv 0 [("session_handle", .str "/session")]), s)
  | .call (.authorize _), s | .call (.start _), s => (.ok (.u 0), s)
  | .setPortalSession _, s | .sleep _, s => ((), s)
  | .isCancelled, s => (false, s)
  | .nowMs, s => (0, s)

theorem serves_respond (server : Server) (op : InputOp) (s : Unit) :
    server.Serves ⟨op, (server.respond op s).1⟩ := by
  cases op with
  | call request =>
    cases request with
    | connect => exact fun setup same => (Except.ok.inj same).symm
    | getKeyboardMapping => exact fun mapping same => (Except.ok.inj same).symm
    | _ => trivial
  | _ => trivial

/-! ### A US keyboard -/

def x11Session : SessionEnvironment := ⟨some "x11", false, true⟩

def waylandSession : SessionEnvironment := ⟨some "wayland", true, false⟩

/-- A server with a US keyboard, whose keys carry two keysyms each. -/
def usServer : Server :=
  let named : List (UInt32 × UInt32) :=
    [(0xffe1, 0), (0xffe3, 0), (0xff0d, 0), (0xff09, 0), (0x20, 0x20)]
  let lower := "`1234567890-=qwertyuiop[]\\asdfghjkl;'zxcvbnm,./".toList
  let upper := "~!@#$%^&*()_+QWERTYUIOP\x7b\x7d|ASDFGHJKL:\"ZXCVBNM<>?".toList
  let keys := named ++ (lower.zip upper).map fun (l, u) => (l.val, u.val)
  ⟨⟨1, 8, 8 + .ofNat keys.length - 1⟩, ⟨2, keys.flatMap fun (l, u) => [l, u]⟩⟩

variable {ε : Type}

/-- The history of an operation against a server. -/
def traceOf (server : Server) (operation : ExceptT ε (Prog Input) Unit) : List (Event Input) :=
  (play server.respond 100 operation.run ()).1

theorem serves_traceOf (operation : ExceptT ε (Prog Input) Unit) :
    ∀ e ∈ traceOf server operation, server.Serves e :=
  play_answers (serves_respond server) 100 operation.run ()

def succeeds (server : Server) (operation : ExceptT ε (Prog Input) Unit) : Bool :=
  (play server.respond 100 operation.run ()).2.1.returned?.any fun
    | .ok _ => true
    | .error _ => false

theorem steps_traceOf {operation : ExceptT ε (Prog Input) Unit}
    (succeeded : succeeds server operation = true) :
    Steps operation.run (traceOf server operation) (.ret (.ok ())) := by
  obtain ⟨result, ok, run⟩ := steps_returned succeeded
  cases result with
  | ok => exact run
  | error => exact absurd ok Bool.false_ne_true

end Praefectus.Linux
