import Praefectus.Native.Keysyms
import Praefectus.Native.Dispatch

/-!
# Input on Linux

Clicks, moves, typing, key presses and scrolling, through the X server or through the
desktop portal. Every request to either of them may fail.
-/

namespace Praefectus

/-! ### Sessions of the portal -/

inductive Variant where
  | str (value : String)
  | other
  deriving DecidableEq

/-- The body of a reply of the portal. It has one signature, which is `u`, `ua{sv}` or another
one. -/
inductive ReplyBody where
  | u (status : UInt32)
  | uasv (status : UInt32) (results : List (String × Variant))
  | other
  deriving DecidableEq

namespace ReplyBody

/-- A body is read only as what its signature says. -/
def deserializeStatus : ReplyBody → Option UInt32
  | .u status => some status
  | _ => none

def deserializeResults : ReplyBody → Option (UInt32 × List (String × Variant))
  | .uasv status results => some (status, results)
  | _ => none

/-- The handle that `portal_create_session` reads of its reply. The one body is read as a status
first and as a status with results then. -/
def sessionHandle (body : ReplyBody) : Option String := do
  let status ← body.deserializeStatus
  if status ≠ 0 then none
  else
    let (_, results) ← body.deserializeResults
    -- of equal keys the last one is in the map
    match results.reverse.lookup "session_handle" with
    | some (.str handle) => some handle
    | _ => none

/-- No body has both signatures. -/
theorem sessionHandle_none (body : ReplyBody) : body.sessionHandle = none := by
  cases body with
  | u status => simp [sessionHandle, deserializeStatus, deserializeResults]
  | uasv => rfl
  | other => rfl

end ReplyBody

/-- What `PORTAL_SESSION` may hold: only `ensure_portal_session` sets it, to a handle that
`portal_create_session` has read of a reply. -/
structure PortalSession where
  handle : String
  reply : ReplyBody
  created : reply.sessionHandle = some handle
  deriving DecidableEq

/-- So it never holds one. -/
instance : IsEmpty PortalSession where
  false session := by
    have created := session.created
    rw [ReplyBody.sessionHandle_none] at created
    contradiction

/-! ### Requests -/

/-- The requests to the X server and to the portal, and the lock of `PORTAL_SESSION`. -/
inductive InputCall where
  | connect
  | getKeyboardMapping (firstKeycode count : UInt8)
  | xtestFakeInput (type detail : UInt8) (root : UInt32) (rootX rootY : Int16)
  | warpPointer (dstWindow : UInt32) (dstX dstY : Int16)
  | flush
  | lockPortalSession
  | portalConnection
  | createSession
  | authorize (sessionHandle : String)
  | start (sessionHandle : String)
  | notifyPointerMotion (dx dy : Int)
  | notifyPointerButton (button state : UInt32)
  | notifyPointerAxis (dx dy : Int)
  | notifyKeyboardKeysym (keysym : Int32) (state : UInt32)
  deriving DecidableEq

def InputCall.Result : InputCall → Type
  | .connect => Setup
  | .getKeyboardMapping .. => KeyboardMapping
  | .lockPortalSession => Option PortalSession
  | .createSession | .authorize _ | .start _ => ReplyBody
  | _ => Unit

inductive InputOp where
  | call (request : InputCall)
  | setPortalSession (session : PortalSession)
  | sleep (ms : UInt64)
  | isCancelled
  | nowMs

abbrev Input : Interface where
  Op := InputOp
  Ans
    | .call request => Except NativeError request.Result
    | .setPortalSession _ | .sleep _ => Unit
    | .isCancelled => Bool
    | .nowMs => Int64

abbrev InputM := ExceptT NativeError (Prog Input)

namespace Linux

def call (request : InputCall) : InputM request.Result :=
  ExceptT.mk (Prog.perform (I := Input) (.call request))

def sleep (ms : UInt64) : InputM Unit :=
  monadLift (Prog.perform (I := Input) (.sleep ms) : Prog Input Unit)

def pause : Option UInt64 → InputM Unit
  | some delay => Prog.when (delay > 0) (sleep delay)
  | none => pure ()

/-! ### The session -/

inductive SessionType where
  | x11 | wayland | unknown
  deriving DecidableEq

/-- The environment variables that tell the session, where a value that is not Unicode is
none. -/
structure SessionEnvironment where
  xdgSessionType : Option String
  waylandDisplay : Bool
  display : Bool
  deriving DecidableEq

def eqIgnoreAsciiCase (a b : String) : Bool :=
  a.toList.map Char.toLower = b.toList.map Char.toLower

def sessionType (env : SessionEnvironment) : SessionType :=
  if env.xdgSessionType.any (eqIgnoreAsciiCase · "wayland") then .wayland
  else if env.xdgSessionType.any (eqIgnoreAsciiCase · "x11") then .x11
  else if env.waylandDisplay then .wayland
  else if env.display then .x11
  else .unknown

/-! ### Opening a session of the portal -/

def portalCreateSession : InputM PortalSession := do
  let reply ← call .createSession
  match created : reply.sessionHandle with
  | some handle => return ⟨handle, reply, created⟩
  | none => throw ⟨⟩

def portalStatus (reply : ReplyBody) : InputM Unit :=
  match reply.deserializeStatus with
  | some status => if status ≠ 0 then throw ⟨⟩ else return
  | none => throw ⟨⟩

def portalAuthorize (session : PortalSession) : InputM Unit := do
  let reply ← call (.authorize session.handle)
  portalStatus reply

def portalStart (session : PortalSession) : InputM Unit := do
  let reply ← call (.start session.handle)
  portalStatus reply

def setPortalSession (session : PortalSession) : InputM Unit :=
  monadLift (Prog.perform (I := Input) (.setPortalSession session) : Prog Input Unit)

def openPortalSession : InputM PortalSession := do
  call .portalConnection
  let session ← portalCreateSession
  portalAuthorize session
  portalStart session
  setPortalSession session
  return session

def ensurePortalSession : InputM PortalSession := do
  match ← call .lockPortalSession with
  | some session => return session
  | none => openPortalSession

/-! ### Keys -/

/-- The first key that carries the keysym, whatever the level. -/
def keysymToKeycode (setup : Setup) (keysym : UInt32) : InputM UInt8 := do
  let count := setup.maxKeycode - setup.minKeycode + 1
  let mapping ← call (.getKeyboardMapping setup.minKeycode count)
  match mapping.find? count keysym with
  | some offset =>
    if setup.minKeycode.toNat + offset < 256 then return setup.minKeycode + .ofNat offset
    else throw ⟨⟩
  | none => throw ⟨⟩

/-- The keysym of a named key, or else of the first character of the name. -/
def keysymForKey (key : String) : Option UInt32 :=
  (keysymForName key).or (key.toList.head?.map characterToKeysym)

def x11FakeInput (setup : Setup) (type detail : UInt8) : InputM Unit := do
  call (.xtestFakeInput type detail setup.root 0 0)
  call .flush

def x11Tap (setup : Setup) (keycode : UInt8) : InputM Unit := do
  x11FakeInput setup 2 keycode
  x11FakeInput setup 3 keycode

def portalTap (keysym : UInt32) : InputM Unit := do
  call (.notifyKeyboardKeysym keysym.toInt32 1)
  call (.notifyKeyboardKeysym keysym.toInt32 0)

def x11Press (key : String) (count : UInt32) (delayMs : Option UInt64) : InputM Unit := do
  let setup ← call .connect
  let keysym := (keysymForKey key).getD 0
  if keysym = 0 then throw ⟨⟩
  else
    let keycode ← keysymToKeycode setup keysym
    (List.range count.toNat).forM fun i => do
      Prog.when (i > 0) (pause delayMs)
      x11Tap setup keycode

def portalPress (key : String) (count : UInt32) (delayMs : Option UInt64) : InputM Unit := do
  let keysym := (keysymForKey key).getD 0
  if keysym = 0 then throw ⟨⟩
  else
    let _ ← ensurePortalSession
    (List.range count.toNat).forM fun i => do
      Prog.when (i > 0) (pause delayMs)
      portalTap keysym

def nativePress (env : SessionEnvironment) (key : String) (count : UInt32)
    (delayMs : Option UInt64) : InputM Unit :=
  if count = 0 ∨ key.isEmpty then throw ⟨⟩
  else match sessionType env with
    | .x11 => x11Press key count delayMs
    | .wayland => portalPress key count delayMs
    | .unknown => throw ⟨⟩

def x11Hotkey (keys : List String) : InputM Unit := do
  let setup ← call .connect
  let keycodes ← keys.mapM fun key => do
    match keysymForKey key with
    | some keysym => keysymToKeycode setup keysym
    | none => throw ⟨⟩
  keycodes.forM (x11FakeInput setup 2)
  keycodes.reverse.forM (x11FakeInput setup 3)

def portalHotkey (keys : List String) : InputM Unit := do
  let _ ← ensurePortalSession
  let keysyms ← keys.mapM fun key => do
    match keysymForKey key with
    | some keysym => pure keysym
    | none => throw ⟨⟩
  keysyms.forM fun keysym => call (.notifyKeyboardKeysym keysym.toInt32 1)
  keysyms.reverse.forM fun keysym => call (.notifyKeyboardKeysym keysym.toInt32 0)

def nativeHotkey (env : SessionEnvironment) (keys : List String) : InputM Unit :=
  if keys.isEmpty then throw ⟨⟩
  else match sessionType env with
    | .x11 => x11Hotkey keys
    | .wayland => portalHotkey keys
    | .unknown => throw ⟨⟩

/-! ### Typing -/

section Typing

variable (isUppercase : Char → Bool)

def needsShift (ch : Char) : Bool := isUppercase ch || isShiftSymbol ch

/-- Types a character. Only the shift key is released. -/
def x11TypeCharacter (setup : Setup) (delayMs : Option UInt64) (ch : Char) : InputM Unit := do
  let keycode ← keysymToKeycode setup (characterToKeysym ch)
  Prog.when (needsShift isUppercase ch) do
    let shiftKeycode ← keysymToKeycode setup 0xffe1
    x11FakeInput setup 2 shiftKeycode
  x11FakeInput setup 2 keycode
  Prog.when (needsShift isUppercase ch) do
    let shiftKeycode ← keysymToKeycode setup 0xffe1
    x11FakeInput setup 3 shiftKeycode
  pause delayMs

def x11Clear : InputM Unit := do
  x11Hotkey ["ctrl", "a"]
  sleep 10
  x11Press "BackSpace" 1 none
  sleep 10

def x11TypeText (text : String) (clear pressReturn : Bool) (delayMs : Option UInt64) :
    InputM Unit := do
  Prog.when clear x11Clear
  let setup ← call .connect
  text.toList.forM (x11TypeCharacter isUppercase setup delayMs)
  Prog.when pressReturn do
    let returnKeycode ← keysymToKeycode setup 0xff0d
    x11Tap setup returnKeycode

def portalTypeCharacter (delayMs : Option UInt64) (ch : Char) : InputM Unit := do
  portalTap (characterToKeysym ch)
  pause delayMs

def portalClear : InputM Unit := do
  portalHotkey ["ctrl", "a"]
  sleep 10
  portalPress "BackSpace" 1 none
  sleep 10

def portalTypeText (text : String) (clear pressReturn : Bool) (delayMs : Option UInt64) :
    InputM Unit := do
  Prog.when clear portalClear
  let _ ← ensurePortalSession
  text.toList.forM (portalTypeCharacter delayMs)
  Prog.when pressReturn (portalTap 0xff0d)

def nativeTypeText (env : SessionEnvironment) (text : String) (clear pressReturn : Bool)
    (delayMs : Option UInt64) : InputM Unit :=
  if '\x00' ∈ text.toList then throw ⟨⟩
  else match sessionType env with
    | .x11 => x11TypeText isUppercase text clear pressReturn delayMs
    | .wayland => portalTypeText text clear pressReturn delayMs
    | .unknown => throw ⟨⟩

end Typing

/-! ### The pointer -/

/-- The integer nearest to `n` that a double represents, and of two the even one, for `n`
of at most 64 bits. -/
def toF64 (n : Int) : Int :=
  let unit : Int := 2 ^ (n.natAbs.log2 - 52)
  let below := n / unit
  let rest := n - below * unit
  let up := 2 * rest > unit ∨ (2 * rest = unit ∧ below % 2 = 1)
  if up then (below + 1) * unit else below * unit

def x11Button : MouseButton → UInt8
  | .left => 1
  | .middle => 2
  | .right => 3

def evdevButton : MouseButton → UInt32
  | .left => 0x110
  | .right => 0x111
  | .middle => 0x112

def x11Click (point : NativePoint) (button : MouseButton) : InputM Unit := do
  let setup ← call .connect
  let x := point.x.toInt16
  let y := point.y.toInt16
  call (.warpPointer setup.root x y)
  call (.xtestFakeInput 4 (x11Button button) setup.root x y)
  call (.xtestFakeInput 5 (x11Button button) setup.root x y)
  call .flush

def portalClick (button : MouseButton) : InputM Unit := do
  let _ ← ensurePortalSession
  call (.notifyPointerButton (evdevButton button) 1)
  call (.notifyPointerButton (evdevButton button) 0)

def nativeClick (env : SessionEnvironment) (point : NativePoint) (button : MouseButton) :
    InputM Unit :=
  match sessionType env with
  | .x11 => x11Click point button
  | .wayland => portalClick button
  | .unknown => throw ⟨⟩

def x11Move (point : NativePoint) : InputM Unit := do
  let setup ← call .connect
  call (.warpPointer setup.root point.x.toInt16 point.y.toInt16)
  call .flush

def portalMove (point : NativePoint) : InputM Unit := do
  let _ ← ensurePortalSession
  call (.notifyPointerMotion (toF64 point.x.toInt) (toF64 point.y.toInt))

def nativeMove (env : SessionEnvironment) (point : NativePoint) : InputM Unit :=
  match sessionType env with
  | .x11 => x11Move point
  | .wayland => portalMove point
  | .unknown => throw ⟨⟩

/-! ### Scrolling -/

/-- The button pressed for a direction and the button released. -/
def scrollButtons : Direction → UInt8 × UInt8
  | .up => (4, 5)
  | .down => (5, 4)
  | .left => (6, 7)
  | .right => (7, 6)

def x11Scroll (direction : Direction) (amount : UInt32) : InputM Unit := do
  let setup ← call .connect
  let (buttonDown, buttonUp) := scrollButtons direction
  (List.range amount.toNat).forM fun _ => do
    x11FakeInput setup 4 buttonDown
    x11FakeInput setup 5 buttonUp

def portalScroll (direction : Direction) (amount : UInt32) : InputM Unit := do
  let _ ← ensurePortalSession
  let step : Int := 10 * amount.toNat
  let (dx, dy) : Int × Int := match direction with
    | .up => (0, -step)
    | .down => (0, step)
    | .left => (-step, 0)
    | .right => (step, 0)
  call (.notifyPointerAxis dx dy)

def nativeScroll (env : SessionEnvironment) (direction : Direction) (amount : UInt32) :
    InputM Unit :=
  if amount = 0 then throw ⟨⟩
  else match sessionType env with
    | .x11 => x11Scroll direction amount
    | .wayland => portalScroll direction amount
    | .unknown => throw ⟨⟩

end Linux

end Praefectus
