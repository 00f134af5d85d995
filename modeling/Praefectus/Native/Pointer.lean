import Praefectus.Native.LinuxDeeds
import Praefectus.Native.Portal

/-!
# Where the pointer lands

The pointer is warped to absolute coordinates of 16 bits and kept on the screen by the server.
Points have coordinates of 64 bits.
-/

namespace Praefectus

abbrev Position := Int × Int

def NativePoint.position (point : NativePoint) : Position := (point.x.toInt, point.y.toInt)

namespace Linux

open Prog

/-! ### The pointer -/

/-- The screen of a server, in pixels. -/
structure Screen where
  width : UInt16
  height : UInt16
  wide : 0 < width.toNat
  tall : 0 < height.toNat

namespace Screen

variable (screen : Screen)

def Contains (position : Position) : Prop :=
  (0 ≤ position.1 ∧ position.1 < screen.width.toNat) ∧
    0 ≤ position.2 ∧ position.2 < screen.height.toNat

instance (position : Position) : Decidable (screen.Contains position) :=
  inferInstanceAs (Decidable (_ ∧ _))

/-- The pointer never leaves the screen: it goes no further than to the closest edge. -/
def confine (position : Position) : Position :=
  (max 0 (min position.1 (screen.width.toNat - 1)),
    max 0 (min position.2 (screen.height.toNat - 1)))

/-- Where a deed leaves the pointer. -/
def moves (position : Position) : Deed → Position
  | .warp x y => screen.confine (x.toInt, y.toInt)
  | .motion dx dy => screen.confine (position.1 + dx, position.2 + dy)
  | _ => position

/-- Where the pointer is after a sequence of deeds. -/
def landing (position : Position) (deeds : List Deed) : Position :=
  deeds.foldl screen.moves position

/-- The strokes of a sequence of deeds, each with the position of the pointer. -/
def strokesAt (position : Position) : List Deed → List (Position × Stroke Control)
  | [] => []
  | .stroke done :: deeds => (position, done) :: strokesAt position deeds
  | deed :: deeds => strokesAt (screen.moves position deed) deeds

end Screen

/-- The mouse buttons of the X server and of the kernel's event codes. -/
def Control.mouseButton : Control → Option MouseButton
  | .button number =>
    if number = 1 then some .left
    else if number = 2 then some .middle
    else if number = 3 then some .right
    else none
  | .evdevButton code =>
    if code = 0x110 then some .left
    else if code = 0x111 then some .right
    else if code = 0x112 then some .middle
    else none
  | _ => none

/-! ### Operations -/

inductive PointerOperation where
  | click (point : NativePoint) (button : MouseButton)
  | move (point : NativePoint)

def PointerOperation.run (env : SessionEnvironment) : PointerOperation → InputM Unit
  | .click point button => nativeClick env point button
  | .move point => nativeMove env point

/-- A click presses and releases the button at the point, a move ends at the point. -/
def PointerOperation.Lands (screen : Screen) (previous : Position) (deeds : List Deed) :
    PointerOperation → Prop
  | .click point button => ∃ control, control.mouseButton = some button ∧
      screen.strokesAt previous deeds =
        [(point.position, .press control), (point.position, .release control)]
  | .move point => screen.landing previous deeds = point.position

/-- Wherever the pointer was, every run that succeeds lands on the point. -/
def PointerOperation.AlwaysLands (env : SessionEnvironment) (screen : Screen)
    (operation : PointerOperation) : Prop :=
  ∀ (previous : Position) (trace : List (Event Input)),
    Steps (operation.run env).run trace (.ret (.ok ())) →
      operation.Lands screen previous (deeds trace)

def PointerOperation.point : PointerOperation → NativePoint
  | .click point _ | .move point => point

def FitsInt16 (n : Int) : Prop := -2 ^ 15 ≤ n ∧ n < 2 ^ 15

instance (n : Int) : Decidable (FitsInt16 n) := inferInstanceAs (Decidable (_ ∧ _))

/-- Through the X server the point must be on the screen, and its coordinates must fit their
type. In every other session nothing succeeds. -/
def PointerOperation.Hits (env : SessionEnvironment) (screen : Screen)
    (operation : PointerOperation) : Prop :=
  sessionType env = .x11 → screen.Contains operation.point.position ∧
    FitsInt16 operation.point.x.toInt ∧ FitsInt16 operation.point.y.toInt

instance (env : SessionEnvironment) (screen : Screen) (operation : PointerOperation) :
    Decidable (operation.Hits env screen) :=
  inferInstanceAs (Decidable (_ → _ ∧ _ ∧ _))

/-! ### Where a warp ends -/

/-- A coordinate that is cut to 16 bits and then confined is kept exactly if both leave it
alone: what wraps becomes negative or changes by a multiple of the width of the type. -/
theorem confined_eq {size : UInt16} (n : Int64) (some : 0 < size.toNat) :
    max 0 (min n.toInt16.toInt ((size.toNat : Int) - 1)) = n.toInt ↔
      (0 ≤ n.toInt ∧ n.toInt < size.toNat) ∧ FitsInt16 n.toInt := by
  have below := size.toNat_lt
  rw [Int64.toInt_toInt16, FitsInt16, Int.bmod_def]
  omega

theorem warp_lands (screen : Screen) (point : NativePoint) :
    screen.confine (point.x.toInt16.toInt, point.y.toInt16.toInt) = point.position ↔
      screen.Contains point.position ∧ FitsInt16 point.x.toInt ∧ FitsInt16 point.y.toInt := by
  rw [Screen.confine, NativePoint.position, Prod.mk.injEq, confined_eq _ screen.wide,
    confined_eq _ screen.tall, Screen.Contains]
  tauto

/-- A tap of the control of a button, at some position. -/
theorem tap_lands {position : Position} {point : NativePoint} {button : MouseButton}
    {control : Control} (denotes : control.mouseButton = some button) :
    (∃ control', control'.mouseButton = some button ∧
      [(position, Stroke.press control), (position, .release control)] =
        [(point.position, .press control'), (point.position, .release control')]) ↔
      position = point.position := by
  constructor
  · rintro ⟨_, _, same⟩
    simp only [List.cons.injEq, Prod.mk.injEq] at same
    exact same.1.1
  · rintro rfl
    exact ⟨control, denotes, rfl⟩

theorem x11Button_denotes (button : MouseButton) :
    (Control.button (x11Button button)).mouseButton = some button := by
  cases button <;> rfl

/-! ### Main theorem -/

def PointerOperation.x11 : PointerOperation → InputM Unit
  | .click point button => x11Click point button
  | .move point => x11Move point

theorem run_x11 {env : SessionEnvironment} (session : sessionType env = .x11)
    (operation : PointerOperation) : operation.run env = operation.x11 := by
  cases operation with
  | click point button =>
    simp only [PointerOperation.run, PointerOperation.x11, nativeClick, session]
  | move point => simp only [PointerOperation.run, PointerOperation.x11, nativeMove, session]

/-- Elsewhere no run succeeds. -/
theorem refuses_elsewhere {env : SessionEnvironment} (session : sessionType env ≠ .x11)
    (operation : PointerOperation) :
    Refuses (fun op => deedsOf op ≠ []) (operation.run env) := by
  apply refuses_of_judged
  have harmless : ∀ op, OpensSession op → ¬ deedsOf op ≠ [] := silent_session
  cases operation with
  | click point button =>
    simp only [PointerOperation.run, nativeClick]
    split
    next x11 => exact absurd x11 session
    next => exact fails_portalClick harmless button
    next => exact judged_throw trivial
  | move point =>
    simp only [PointerOperation.run, nativeMove]
    split
    next x11 => exact absurd x11 session
    next => exact fails_portalMove harmless point
    next => exact judged_throw trivial

/-- Through the X server a run that succeeds warps the pointer once. -/
theorem yields_x11Pointer (screen : Screen) (previous : Position) (operation : PointerOperation) :
    Yields (desktop none)
      (fun events _ => operation.Lands screen previous events ↔
        screen.confine (operation.point.x.toInt16.toInt, operation.point.y.toInt16.toInt) =
          operation.point.position)
      operation.x11 := by
  cases operation with
  | click point button =>
    refine yields_mono (emits_x11Click point button) ?_
    rintro _ _ rfl
    exact tap_lands (x11Button_denotes button)
  | move point =>
    refine yields_mono (emits_x11Move point) ?_
    rintro _ _ rfl
    exact Iff.rfl

/-- A server that never fails carries them out. -/
theorem succeeds_click (server : Server) (point : NativePoint) (button : MouseButton) :
    succeeds server (x11Click point button) = true := rfl

theorem succeeds_move (server : Server) (point : NativePoint) :
    succeeds server (x11Move point) = true := rfl

/-- **Clicks and moves**: wherever the pointer was, an operation that succeeds lands on its point
exactly if it does not go through the X server, where alone it may succeed, or the point is on the
screen and its coordinates fit in 16 bits. -/
theorem pointer_lands (env : SessionEnvironment) (screen : Screen) (operation : PointerOperation) :
    operation.AlwaysLands env screen ↔ operation.Hits env screen := by
  have unknown : ∀ trace : List (Event Input), ∀ e ∈ trace, (desktop none).serves e :=
    fun _ _ _ server known => absurd known (Option.not_mem_none server)
  by_cases session : sessionType env = .x11
  · rw [PointerOperation.AlwaysLands, PointerOperation.Hits, run_x11 session, ← warp_lands]
    simp only [session, true_implies]
    constructor
    · intro always
      obtain ⟨trace, run⟩ : ∃ trace, Steps operation.x11.run trace (.ret (.ok ())) := by
        cases operation with
        | click point button => exact ⟨_, steps_traceOf (succeeds_click usServer point button)⟩
        | move point => exact ⟨_, steps_traceOf (succeeds_move usServer point)⟩
      exact (yields_x11Pointer screen (0, 0) operation trace () (unknown trace) run).mp
        (always (0, 0) trace run)
    · intro lands previous trace run
      exact (yields_x11Pointer screen previous operation trace () (unknown trace) run).mpr lands
  · constructor
    · exact fun _ x11 => absurd x11 session
    · intro _ previous trace run
      exact ((refuses_elsewhere session operation).never run).elim

def fullHd : Screen := ⟨1920, 1080, by decide, by decide⟩

/-- A coordinate of more than 16 bits wraps. -/
theorem pointer_misses :
    ¬ ∀ (env : SessionEnvironment) (screen : Screen) (operation : PointerOperation)
      (previous : Position) (trace : List (Event Input)),
      Steps (operation.run env).run trace (.ret (.ok ())) →
      operation.Lands screen previous (deeds trace) := by
  intro always
  have moved : succeeds usServer (nativeMove x11Session ⟨70000, 0⟩) := by decide +kernel
  have same := always x11Session fullHd (.move ⟨70000, 0⟩) (0, 0) _ (steps_traceOf moved)
  have elsewhere : fullHd.landing (0, 0) (deeds (traceOf usServer
      (nativeMove x11Session ⟨70000, 0⟩))) ≠ (70000, 0) := by decide +kernel
  exact elsewhere same

end Linux

end Praefectus
