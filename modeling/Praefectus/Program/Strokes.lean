import Mathlib.Data.List.Basic

/-!
# Strokes

Presses and releases of controls, such as keys and buttons. Playing a sequence of
strokes keeps track of the controls held.
-/

/-- A press or a release of a control. -/
inductive Stroke (κ : Type) where
  | press (control : κ)
  | release (control : κ)
  deriving DecidableEq

namespace Stroke

variable {κ : Type} [DecidableEq κ]

/-- The controls held after a stroke. Only what is held can be released. -/
def play (held : List κ) : Stroke κ → Option (List κ)
  | .press control => some (control :: held)
  | .release control => if control ∈ held then some (held.erase control) else none

/-- The controls held after a sequence of strokes, from those held before. -/
def playAll (held : List κ) : List (Stroke κ) → Option (List κ)
  | [] => some held
  | stroke :: strokes => (play held stroke).bind fun held => playAll held strokes

/-- Every release is of a control pressed before, and every control pressed is released. -/
def Balanced (strokes : List (Stroke κ)) : Prop := playAll [] strokes = some []

instance (strokes : List (Stroke κ)) : Decidable (Balanced strokes) :=
  inferInstanceAs (Decidable (_ = _))

/-- A press and the release of the same control. -/
def tap (control : κ) : List (Stroke κ) := [.press control, .release control]

/-- Presses in order, released in reverse order. -/
def chord (controls : List κ) : List (Stroke κ) :=
  controls.map .press ++ controls.reverse.map .release

@[simp] theorem playAll_press (held : List κ) (control : κ) (strokes : List (Stroke κ)) :
    playAll held (.press control :: strokes) = playAll (control :: held) strokes := rfl

/-- What is held and pressed last can be released. -/
@[simp] theorem playAll_release (held : List κ) (control : κ) (strokes : List (Stroke κ)) :
    playAll (control :: held) (.release control :: strokes) = playAll held strokes := by
  simp [playAll, play]

theorem playAll_append (held : List κ) (first second : List (Stroke κ)) :
    playAll held (first ++ second) =
      (playAll held first).bind fun held => playAll held second := by
  induction first generalizing held with
  | nil => rfl
  | cons stroke first ih =>
    simp only [List.cons_append, playAll, Option.bind_assoc]
    exact congrArg _ (funext ih)

theorem balanced_nil : Balanced ([] : List (Stroke κ)) := rfl

theorem balanced_append {first second : List (Stroke κ)} (before : Balanced first)
    (after : Balanced second) : Balanced (first ++ second) := by
  rw [Balanced, playAll_append, before]
  exact after

theorem balanced_tap (control : κ) : Balanced (tap control) := by
  rw [Balanced, tap, playAll_press, playAll_release]
  rfl

theorem balanced_flatMap {α : Type} {items : List α} {strokes : α → List (Stroke κ)}
    (each : ∀ item ∈ items, Balanced (strokes item)) : Balanced (items.flatMap strokes) := by
  induction items with
  | nil => exact balanced_nil
  | cons item items ih =>
    rw [List.flatMap_cons]
    have first := each item List.mem_cons_self
    exact balanced_append first (ih fun item member => each item (List.mem_cons_of_mem _ member))

/-! ### Chords -/

theorem playAll_presses (held controls : List κ) :
    playAll held (controls.map .press) = some (controls.reverse ++ held) := by
  induction controls generalizing held with
  | nil => rfl
  | cons control controls ih => simp [ih]

theorem playAll_releases (held controls : List κ) :
    playAll (controls ++ held) (controls.map .release) = some held := by
  induction controls with
  | nil => rfl
  | cons control controls ih => simp [ih]

theorem balanced_chord (controls : List κ) : Balanced (chord controls) := by
  rw [Balanced, chord, playAll_append, playAll_presses]
  exact playAll_releases [] controls.reverse

/-! ### Counting -/

def isPress : Stroke κ → Bool
  | .press _ => true
  | .release _ => false

omit [DecidableEq κ] in
@[simp] theorem isPress_press (control : κ) : isPress (.press control) = true := rfl

omit [DecidableEq κ] in
@[simp] theorem isPress_release (control : κ) : isPress (.release control) = false := rfl

/-- A press adds one held control, a release takes one. -/
theorem count_of_playAll {held held' : List κ} {strokes : List (Stroke κ)}
    (played : playAll held strokes = some held') :
    held.length + strokes.countP isPress = held'.length + strokes.countP (!isPress ·) := by
  induction strokes generalizing held with
  | nil =>
    have same : held = held' := Option.some.inj played
    simp [same]
  | cons stroke strokes ih =>
    cases stroke with
    | press control =>
      have rest := ih played
      simp only [List.length_cons] at rest
      simp only [List.countP_cons, isPress_press]
      simp
      omega
    | release control =>
      by_cases member : control ∈ held
      · simp only [playAll, play, member, if_true, Option.bind_some] at played
        have rest := ih played
        have one := List.length_erase_add_one member
        simp only [List.countP_cons, isPress_release]
        simp
        omega
      · simp [playAll, play, member] at played

theorem count_of_balanced {strokes : List (Stroke κ)} (balanced : Balanced strokes) :
    strokes.countP isPress = strokes.countP (!isPress ·) := by
  have counted := count_of_playAll balanced
  simpa using counted

end Stroke
