import Praefectus.Native.LinuxDeeds

/-!
# Balanced input

When an operation succeeds, every key and button it pressed should be released again.
Scrolling and typing through the X server do not see to that.
-/

namespace Praefectus.Linux

open Prog

/-! ### Operations -/

inductive InputOperation where
  | typeText (text : String) (clear pressReturn : Bool) (delayMs : Option UInt64)
  | press (key : String) (count : UInt32) (delayMs : Option UInt64)
  | hotkey (keys : List String)
  | click (point : NativePoint) (button : MouseButton)
  | scroll (direction : Direction) (amount : UInt32)

def InputOperation.run (isUppercase : Char → Bool) (env : SessionEnvironment) :
    InputOperation → InputM Unit
  | .typeText text clear pressReturn delayMs =>
    nativeTypeText isUppercase env text clear pressReturn delayMs
  | .press key count delayMs => nativePress env key count delayMs
  | .hotkey keys => nativeHotkey env keys
  | .click point button => nativeClick env point button
  | .scroll direction amount => nativeScroll env direction amount

/-- Through the X server only typing no text releases all it presses, and no scrolling does. -/
def InputOperation.Releases (env : SessionEnvironment) : InputOperation → Prop
  | .typeText text _ _ _ => sessionType env = .x11 → text = ""
  | .scroll _ _ => sessionType env ≠ .x11
  | _ => True

/-! ### The strokes of deeds -/

@[simp] theorem strokesOf_append (first second : List Deed) :
    strokesOf (first ++ second) = strokesOf first ++ strokesOf second :=
  List.filterMap_append

@[simp] theorem strokesOf_pressed (control : Control) :
    strokesOf (pressed control) = [.press control] := rfl

@[simp] theorem strokesOf_released (control : Control) :
    strokesOf (released control) = [.release control] := rfl

@[simp] theorem strokesOf_tapped (control : Control) :
    strokesOf (tapped control) = Stroke.tap control := rfl

@[simp] theorem strokesOf_chordOf (controls : List Control) :
    strokesOf (chordOf controls) = Stroke.chord controls := by
  rw [strokesOf, chordOf, List.filterMap_map]
  exact List.filterMap_some

theorem strokesOf_flatMap {α : Type} (items : List α) (done : α → List Deed) :
    strokesOf (items.flatMap done) = items.flatMap fun item => strokesOf (done item) :=
  List.filterMap_flatMap ..

/-! ### What releases all it presses -/

theorem balanced_repeated (count : Nat) (control : Control) :
    Stroke.Balanced (strokesOf ((List.range count).flatMap fun _ => tapped control)) := by
  rw [strokesOf_flatMap]
  exact Stroke.balanced_flatMap fun _ _ => Stroke.balanced_tap control

theorem balanced_cleared (server : Server) : Stroke.Balanced (strokesOf (x11Cleared server)) := by
  rw [x11Cleared, strokesOf_append, strokesOf_chordOf]
  exact Stroke.balanced_append (Stroke.balanced_chord _) (Stroke.balanced_tap _)

theorem balanced_return (pressReturn : Bool) (control : Control) :
    Stroke.Balanced (strokesOf (if pressReturn then tapped control else [])) := by
  cases pressReturn with
  | true => exact Stroke.balanced_tap control
  | false => exact Stroke.balanced_nil

theorem balanced_portalTypeText (text : String) (clear pressReturn : Bool) :
    Stroke.Balanced (strokesOf ((if clear then portalCleared else []) ++
      text.toList.flatMap (fun ch => tapped (.keysym (characterToKeysym ch))) ++
      if pressReturn then tapped (.keysym 0xff0d) else [])) := by
  rw [strokesOf_append, strokesOf_append, strokesOf_flatMap]
  have typed := @Stroke.balanced_flatMap Control _ Char text.toList _ fun ch _ =>
    Stroke.balanced_tap (Control.keysym (characterToKeysym ch))
  refine Stroke.balanced_append (Stroke.balanced_append ?_ typed) (balanced_return pressReturn _)
  cases clear with
  | true =>
    rw [if_pos rfl, portalCleared, strokesOf_append, strokesOf_chordOf]
    exact Stroke.balanced_append (Stroke.balanced_chord _) (Stroke.balanced_tap _)
  | false => exact Stroke.balanced_nil

/-! ### What does not -/

/-- A typed character leaves one key more pressed. -/
theorem count_x11Typed (server : Server) (isUppercase : Char → Bool) (text : List Char) :
    (strokesOf (text.flatMap (x11Typed server isUppercase))).countP Stroke.isPress =
      (strokesOf (text.flatMap (x11Typed server isUppercase))).countP (!Stroke.isPress ·) +
        text.length := by
  induction text with
  | nil => rfl
  | cons ch text ih =>
    simp only [List.flatMap_cons, strokesOf_append, List.countP_append, List.length_cons, ih]
    have one : (strokesOf (x11Typed server isUppercase ch)).countP Stroke.isPress =
        (strokesOf (x11Typed server isUppercase ch)).countP (!Stroke.isPress ·) + 1 := by
      by_cases shifted : needsShift isUppercase ch = true
      · simp [x11Typed, shifted, List.countP_cons]
      · simp [x11Typed, shifted]
    omega

theorem balanced_x11TypeText (server : Server) (isUppercase : Char → Bool) (text : String)
    (clear pressReturn : Bool) :
    Stroke.Balanced (strokesOf ((if clear then x11Cleared server else []) ++
      text.toList.flatMap (x11Typed server isUppercase) ++
      if pressReturn then tapped (server.key 0xff0d) else [])) ↔ text = "" := by
  have cleared : Stroke.Balanced (strokesOf (if clear then x11Cleared server else [])) := by
    cases clear with
    | true => exact balanced_cleared server
    | false => exact Stroke.balanced_nil
  have returned := balanced_return pressReturn (server.key 0xff0d)
  rw [strokesOf_append, strokesOf_append]
  constructor
  · intro balanced
    have total := Stroke.count_of_balanced balanced
    have typed := count_x11Typed server isUppercase text.toList
    simp only [List.countP_append, Stroke.count_of_balanced cleared,
      Stroke.count_of_balanced returned] at total
    have none : text.toList.length = 0 := by omega
    exact String.toList_eq_nil_iff.mp (List.length_eq_zero_iff.mp none)
  · rintro rfl
    exact Stroke.balanced_append (Stroke.balanced_append cleared Stroke.balanced_nil) returned

/-- The button released is not the one pressed. -/
theorem unbalanced_x11Scroll (direction : Direction) {amount : Nat} (some : amount ≠ 0) :
    ¬ Stroke.Balanced (strokesOf ((List.range amount).flatMap fun _ =>
      pressed (.button (scrollButtons direction).1) ++
        released (.button (scrollButtons direction).2))) := by
  obtain ⟨steps, rfl⟩ := Nat.exists_eq_succ_of_ne_zero some
  rw [List.range_succ_eq_map, List.flatMap_cons]
  have other : (scrollButtons direction).2 ≠ (scrollButtons direction).1 := by
    cases direction <;> decide
  simp [Stroke.Balanced, Stroke.playAll, Stroke.play, other]

/-! ### Main theorem -/

theorem yields_balanced (server : Server) (isUppercase : Char → Bool) (env : SessionEnvironment)
    (operation : InputOperation) :
    Yields (desktop (some server))
      (fun events _ => Stroke.Balanced (strokesOf events) ↔ operation.Releases env)
      (operation.run isUppercase env) := by
  cases operation with
  | typeText text clear pressReturn delayMs =>
    simp only [InputOperation.run, nativeTypeText, InputOperation.Releases]
    split
    next => exact yields_throw
    refine yields_session (fun session => ?_) fun session => ?_
    · refine yields_mono (yields_x11TypeText text clear pressReturn delayMs) ?_
      rintro _ _ ⟨_, _, rfl⟩
      simp only [balanced_x11TypeText, session, true_implies]
    · refine yields_mono (emits_portalTypeText text clear pressReturn delayMs) ?_
      rintro _ _ rfl
      have balanced := balanced_portalTypeText text clear pressReturn
      simp only [session, reduceCtorEq, false_implies, iff_true]
      exact balanced
  | press key count delayMs =>
    simp only [InputOperation.run, nativePress, InputOperation.Releases, iff_true]
    split
    next => exact yields_throw
    refine yields_session (fun _ => ?_) fun _ => ?_
    · refine yields_mono (yields_x11Press key count delayMs) ?_
      rintro _ _ ⟨_, keycode, _, _, rfl⟩
      exact balanced_repeated _ _
    · refine yields_mono (emits_portalPress key count delayMs) ?_
      rintro _ _ rfl
      exact balanced_repeated _ _
  | hotkey keys =>
    simp only [InputOperation.run, nativeHotkey, InputOperation.Releases, iff_true]
    split
    next => exact yields_throw
    refine yields_session (fun _ => ?_) fun _ => ?_
    · refine yields_mono (yields_x11Hotkey keys) ?_
      rintro _ _ ⟨keycodes, _, rfl⟩
      rw [strokesOf_chordOf]
      exact Stroke.balanced_chord _
    · refine yields_mono (yields_portalHotkey keys) ?_
      rintro _ _ ⟨keysyms, _, rfl⟩
      rw [strokesOf_chordOf]
      exact Stroke.balanced_chord _
  | click point button =>
    simp only [InputOperation.run, nativeClick, InputOperation.Releases, iff_true]
    refine yields_session (fun _ => ?_) fun _ => ?_
    · refine yields_mono (emits_x11Click point button) ?_
      rintro _ _ rfl
      exact Stroke.balanced_tap _
    · refine yields_mono (emits_portalClick button) ?_
      rintro _ _ rfl
      exact Stroke.balanced_tap _
  | scroll direction amount =>
    simp only [InputOperation.run, nativeScroll, InputOperation.Releases]
    split
    next => exact yields_throw
    next some =>
      refine yields_session (fun session => ?_) fun session => ?_
      · refine yields_mono (emits_x11Scroll direction amount) ?_
        rintro _ _ rfl
        have steps : amount.toNat ≠ 0 := fun none => some (UInt32.toNat_inj.mp none)
        simp [unbalanced_x11Scroll direction steps, session]
      · refine yields_mono (yields_portalScroll direction amount) ?_
        rintro _ _ ⟨dx, dy, rfl⟩
        simp [session]
        exact Stroke.balanced_nil

/-- **Balance**: what an operation that succeeds pressed and released is balanced exactly
where it was neither scrolling through the X server, nor typing text through it. -/
theorem input_balanced (isUppercase : Char → Bool) (env : SessionEnvironment) (server : Server)
    (operation : InputOperation) (trace : List (Event Input))
    (served : ∀ e ∈ trace, server.Serves e)
    (run : Steps (operation.run isUppercase env).run trace (.ret (.ok ()))) :
    Stroke.Balanced (strokes trace) ↔ operation.Releases env :=
  by
  refine yields_balanced server isUppercase env operation trace () ?_ run
  intro e member server' same
  cases same
  exact served e member

/-- Typing one letter through the X server leaves its key pressed. -/
theorem input_balanced_typing :
    ¬ Stroke.Balanced (strokes (traceOf usServer
      (nativeTypeText Char.isUpper x11Session "a" false false none))) := by
  have exactly := input_balanced Char.isUpper x11Session usServer (.typeText "a" false false none) _
    (serves_traceOf _) (steps_traceOf (by decide +kernel))
  apply mt exactly.mp
  intro releases
  exact absurd (releases (by decide)) (by decide)

/-- Not every operation that succeeds is balanced. -/
theorem input_unbalanced :
    ¬ ∀ (isUppercase : Char → Bool) (env : SessionEnvironment) (server : Server)
      (operation : InputOperation) (trace : List (Event Input)),
      (∀ e ∈ trace, server.Serves e) →
      Steps (operation.run isUppercase env).run trace (.ret (.ok ())) →
      Stroke.Balanced (strokes trace) := by
  intro always
  have balanced := always Char.isUpper x11Session usServer (.typeText "a" false false none) _
    (serves_traceOf _) (steps_traceOf (by decide +kernel))
  revert balanced
  decide +kernel

end Praefectus.Linux
