import Praefectus.Native.Balance
import Praefectus.Native.Portal

/-!
# Typing and what is read of it

A client reads the keys it is sent: the modifiers held, and for every other key the keysym
it has with them. Text is typed right where the client reads the same text.
-/

namespace Praefectus.Linux

open Prog

/-! ### Clients -/

inductive Modifier where
  | shift | control
  deriving DecidableEq

def keysymModifier (keysym : UInt32) : Option Modifier :=
  if keysym = 0xffe1 ∨ keysym = 0xffe2 then some .shift
  else if keysym = 0xffe3 ∨ keysym = 0xffe4 then some .control
  else none

namespace Server

variable (server : Server)

/-- The keysym of a key at a level. -/
def keysymAt (keycode : UInt8) (level : Nat) : Option UInt32 :=
  server.mapping.at? (keycode.toNat - server.setup.minKeycode.toNat) level

/-- A key carries a keysym at some level. -/
def Carries (keycode : UInt8) (keysym : UInt32) : Prop :=
  ∃ level < server.mapping.keysymsPerKeycode.toNat, server.keysymAt keycode level = some keysym

instance (keycode : UInt8) (keysym : UInt32) : Decidable (server.Carries keycode keysym) :=
  inferInstanceAs (Decidable (∃ level < _, _))

/-- A key is a modifier key if it carries a keysym of that modifier. -/
def modifier : Control → Option Modifier
  | .key keycode =>
    if server.Carries keycode 0xffe1 ∨ server.Carries keycode 0xffe2 then some .shift
    else if server.Carries keycode 0xffe3 ∨ server.Carries keycode 0xffe4 then some .control
    else none
  | .keysym keysym => keysymModifier keysym
  | _ => none

/-- Keys have the keysym of level 1 with shift and of level 0 without. -/
def keysymOf (shift : Bool) : Control → Option UInt32
  | .key keycode => server.keysymAt keycode (if shift then 1 else 0)
  | .keysym keysym => some keysym
  | _ => none

end Server

/-- A key that is not a modifier, pressed with or without control. -/
structure Keystroke where
  control : Bool
  keysym : Option UInt32
  deriving DecidableEq

/-- The keystrokes in a sequence of strokes, from the modifiers held before. -/
def keystrokes (server : Server) : List Control → List (Stroke Control) → List Keystroke
  | _, [] => []
  | held, .press control :: strokes =>
    if (server.modifier control).isSome then keystrokes server (control :: held) strokes
    else
      let holds (modifier : Modifier) := held.any fun key => server.modifier key = some modifier
      ⟨holds .control, server.keysymOf (holds .shift) control⟩ :: keystrokes server held strokes
  | held, .release control :: strokes => keystrokes server (held.erase control) strokes

/-- The character that a keystroke enters. -/
def Keystroke.character (keystroke : Keystroke) : Option Char :=
  if keystroke.control then none else keystroke.keysym.bind spells

/-- What a client reads of a sequence of strokes. -/
def reads (server : Server) (strokes : List (Stroke Control)) : List Char :=
  (keystrokes server [] strokes).filterMap Keystroke.character

/-! ### Keys found for keysyms -/

variable {server : Server}

/-- The key found for a keysym carries it. -/
theorem carries_keycode {keysym : UInt32} {keycode : UInt8}
    (found : server.keycode keysym = some keycode) : server.Carries keycode keysym := by
  simp only [Server.keycode, keycodeOf, Option.bind_eq_bind, Option.bind_eq_some_iff] at found
  obtain ⟨offset, first, below⟩ := found
  split at below
  next bounded =>
    have same := Option.some.inj below
    have offset_eq : keycode.toNat - server.setup.minKeycode.toNat = offset := by
      rw [← same]
      simp [UInt8.toNat_add]
      omega
    have carried := List.find?_some first
    simp only [List.any_eq_true, List.mem_range, decide_eq_true_eq] at carried
    obtain ⟨level, inside, at_level⟩ := carried
    refine ⟨level, inside, ?_⟩
    rw [Server.keysymAt, offset_eq]
    exact at_level
  next => exact absurd below (Option.some_ne_none keycode).symm

theorem modifier_shift (found : (server.keycode 0xffe1).isSome) :
    server.modifier (server.key 0xffe1) = some .shift := by
  obtain ⟨keycode, found⟩ := Option.isSome_iff_exists.mp found
  rw [Server.key_eq found, Server.modifier, if_pos (.inl (carries_keycode found))]

/-! ### Typing through the X server -/

/-- The key found for a keysym is no modifier, and with shift or without spells the
character. -/
def TypesAs (server : Server) (shift : Bool) (keysym : UInt32) (ch : Char) : Prop :=
  server.modifier (server.key keysym) = none ∧
    (server.keysymOf shift (server.key keysym)).bind spells = some ch

instance (server : Server) (shift : Bool) (keysym : UInt32) (ch : Char) :
    Decidable (TypesAs server shift keysym ch) := inferInstanceAs (Decidable (_ ∧ _))

section Reading

variable {isUppercase : Char → Bool}

theorem keystrokes_press_key {held : List Control} {control : Control}
    {rest : List (Stroke Control)} (plain : server.modifier control = none) :
    keystrokes server held (.press control :: rest) =
      ⟨held.any fun key => server.modifier key = some .control,
        server.keysymOf (held.any fun key => server.modifier key = some .shift) control⟩ ::
      keystrokes server held rest := by
  simp [keystrokes, plain]

theorem keystrokes_press_modifier {held : List Control} {control : Control}
    {rest : List (Stroke Control)} (modifier : server.modifier control ≠ none) :
    keystrokes server held (.press control :: rest) = keystrokes server (control :: held) rest := by
  rw [keystrokes, if_pos (Option.isSome_iff_ne_none.mpr modifier)]

/-- A typed character is at most one keystroke, and none if its key is a modifier. With no
modifier held before, its own key is pressed with shift where the character needs it. -/
theorem keystrokes_x11Typed {ch : Char} (can : CanType server isUppercase ch)
    (held : List Control) (rest : List (Stroke Control)) :
    ∃ held' first,
      keystrokes server held (strokesOf (x11Typed server isUppercase ch) ++ rest) =
        first ++ keystrokes server held' rest ∧ first.length ≤ 1 ∧
      (server.modifier (server.key (characterToKeysym ch)) ≠ none → first = []) ∧
      (server.modifier (server.key (characterToKeysym ch)) = none → held = [] →
        held' = [] ∧
        first = [⟨false, server.keysymOf (needsShift isUppercase ch)
          (server.key (characterToKeysym ch))⟩]) := by
  by_cases shifted : needsShift isUppercase ch = true
  · have shift := modifier_shift (can.2 shifted)
    have isModifier : server.modifier (server.key 0xffe1) ≠ none := by simp [shift]
    simp only [x11Typed, shifted, if_true, strokesOf_append, strokesOf_pressed,
      strokesOf_released, List.cons_append, List.nil_append,
      keystrokes_press_modifier isModifier]
    by_cases plain : server.modifier (server.key (characterToKeysym ch)) = none
    · rw [keystrokes_press_key plain]
      refine ⟨_, [_], rfl, Nat.le_refl 1, fun other => absurd plain other, fun _ empty => ?_⟩
      simp [empty, shift]
    · rw [keystrokes_press_modifier plain]
      exact ⟨_, [], rfl, Nat.zero_le 1, fun _ => rfl, fun none => absurd none plain⟩
  · rw [x11Typed, if_neg shifted, strokesOf_pressed, List.singleton_append]
    by_cases plain : server.modifier (server.key (characterToKeysym ch)) = none
    · rw [keystrokes_press_key plain]
      refine ⟨_, [_], rfl, Nat.le_refl 1, fun other => absurd plain other, fun _ empty => ?_⟩
      simp [empty, shifted]
    · rw [keystrokes_press_modifier plain]
      exact ⟨_, [], rfl, Nat.zero_le 1, fun _ => rfl, fun none => absurd none plain⟩

/-- What is read of a text and what follows it is at most its length longer. -/
theorem length_reads_text {text : List Char} {after : List (Stroke Control)} {n : Nat}
    (can : ∀ ch ∈ text, CanType server isUppercase ch)
    (short : ∀ held, ((keystrokes server held after).filterMap Keystroke.character).length ≤ n)
    (held : List Control) :
    ((keystrokes server held (strokesOf (text.flatMap (x11Typed server isUppercase)) ++ after)).filterMap
      Keystroke.character).length ≤ text.length + n := by
  induction text generalizing held with
  | nil => simpa [strokesOf] using short held
  | cons ch text ih =>
    obtain ⟨held', first, same, one, _⟩ := keystrokes_x11Typed (can ch List.mem_cons_self) held
      (strokesOf (text.flatMap (x11Typed server isUppercase)) ++ after)
    rw [List.flatMap_cons, strokesOf_append, List.append_assoc, same, List.filterMap_append,
      List.length_append, List.length_cons]
    have rest := ih (fun ch member => can ch (List.mem_cons_of_mem _ member)) held'
    have fewer := List.length_filterMap_le Keystroke.character first
    omega

theorem too_short {read text expected : List Char} {ch : Char}
    (short : read.length ≤ text.length + expected.length) : read ≠ ch :: text ++ expected := by
  rintro rfl
  simp at short

/-- A text is read right exactly if each of its characters is, and what follows it. -/
theorem reads_text {text : List Char} {after : List (Stroke Control)} {expected : List Char}
    (can : ∀ ch ∈ text, CanType server isUppercase ch)
    (short : ∀ held, ((keystrokes server held after).filterMap Keystroke.character).length ≤
      expected.length) :
    reads server (strokesOf (text.flatMap (x11Typed server isUppercase)) ++ after) =
        text ++ expected ↔
      (∀ ch ∈ text, TypesAs server (needsShift isUppercase ch) (characterToKeysym ch) ch) ∧
        reads server after = expected := by
  induction text with
  | nil => simp [strokesOf]
  | cons ch text ih =>
    have canRest : ∀ ch ∈ text, CanType server isUppercase ch :=
      fun ch member => can ch (List.mem_cons_of_mem _ member)
    obtain ⟨held, first, same, _, silent, typed⟩ := keystrokes_x11Typed (can ch List.mem_cons_self) []
      (strokesOf (text.flatMap (x11Typed server isUppercase)) ++ after)
    have bound := length_reads_text canRest short held
    rw [List.flatMap_cons, strokesOf_append, List.append_assoc, reads, same, List.filterMap_append]
    rw [List.forall_mem_cons]
    by_cases plain : server.modifier (server.key (characterToKeysym ch)) = none
    · obtain ⟨rfl, rfl⟩ := typed plain rfl
      have rest := ih canRest
      rw [reads] at rest
      cases read : (server.keysymOf (needsShift isUppercase ch)
          (server.key (characterToKeysym ch))).bind spells with
      | none =>
        have silent : Keystroke.character ⟨false, server.keysymOf (needsShift isUppercase ch)
          (server.key (characterToKeysym ch))⟩ = none := by simpa [Keystroke.character] using read
        simp only [List.filterMap_cons, silent, List.filterMap_nil, List.nil_append, TypesAs, read,
          reduceCtorEq, and_false, false_and, iff_false]
        exact too_short bound
      | some c =>
        have entered : Keystroke.character ⟨false, server.keysymOf (needsShift isUppercase ch)
          (server.key (characterToKeysym ch))⟩ = some c := by
          simpa [Keystroke.character] using read
        have right : TypesAs server (needsShift isUppercase ch) (characterToKeysym ch) ch ↔
            c = ch := by simp [TypesAs, plain, read]
        simp only [List.filterMap_cons, entered, List.filterMap_nil, List.nil_append,
          List.cons_append, List.cons.injEq, right, rest, and_assoc]
    · rw [silent plain]
      simp only [List.filterMap_nil, List.nil_append, TypesAs, plain, false_and, iff_false]
      exact too_short bound

theorem reads_return {control : Control} (pressReturn : Bool) :
    (∀ held, ((keystrokes server held
        (strokesOf (if pressReturn then tapped control else []))).filterMap
          Keystroke.character).length ≤ (if pressReturn then ['\n'] else []).length) ∧
      (reads server (strokesOf (if pressReturn then tapped control else [])) =
          (if pressReturn then ['\n'] else []) ↔
        (pressReturn → server.modifier control = none ∧
          (server.keysymOf false control).bind spells = some '\n')) := by
  cases pressReturn with
  | false => simp [strokesOf, keystrokes, reads]
  | true =>
    simp only [if_true, strokesOf_tapped, Stroke.tap, true_implies, List.length_singleton, reads]
    by_cases plain : server.modifier control = none
    · simp only [keystrokes, plain, true_and]
      refine ⟨fun held => List.length_filterMap_le _ _, ?_⟩
      cases read : (server.keysymOf false control).bind spells with
      | none => simp [Keystroke.character, read]
      | some c => simp [Keystroke.character, read]
    · have isModifier := Option.isSome_iff_ne_none.mpr plain
      simp [keystrokes, isModifier, plain]

end Reading

/-- **Typing through the X server**: what a client reads of a text that was typed is that
text, and a line end for the return key, exactly if for every character the first key that
carries its keysym is no modifier and spells the character, with shift where the character is
upper case or a shifted symbol of a US keyboard. -/
theorem x11_typing_read (isUppercase : Char → Bool) (server : Server) (text : String)
    (pressReturn : Bool) (delayMs : Option UInt64) (trace : List (Event Input))
    (served : ∀ e ∈ trace, server.Serves e)
    (run : Steps (x11TypeText isUppercase text false pressReturn delayMs).run trace
      (.ret (.ok ()))) :
    reads server (strokes trace) = text.toList ++ (if pressReturn then ['\n'] else []) ↔
      (∀ ch ∈ text.toList,
        TypesAs server (needsShift isUppercase ch) (characterToKeysym ch) ch) ∧
      (pressReturn → TypesAs server false 0xff0d '\n') := by
  have known : ∀ e ∈ trace, (desktop (some server)).serves e := by
    intro e member server' same
    cases same
    exact served e member
  obtain ⟨can, _, done⟩ := yields_x11TypeText text false pressReturn delayMs trace () known run
  have done : deeds trace = _ := done
  obtain ⟨short, returned⟩ := @reads_return server (server.key 0xff0d) pressReturn
  rw [strokes, done, List.append_assoc, if_neg Bool.false_ne_true, List.nil_append,
    strokesOf_append, reads_text can short, returned]
  rfl

theorem x11_typing_read_us :
    reads usServer (strokes (traceOf usServer (x11TypeText Char.isUpper "Hi!" false true none))) =
      "Hi!".toList ++ ['\n'] := by
  have exactly := x11_typing_read Char.isUpper usServer "Hi!" true none _ (serves_traceOf _)
    (steps_traceOf (by decide +kernel))
  have typed : ("Hi!".toList.all fun ch =>
      TypesAs usServer (needsShift Char.isUpper ch) (characterToKeysym ch) ch) = true := by
    decide +kernel
  apply exactly.mpr
  constructor
  · exact fun ch member => of_decide_eq_true (List.all_eq_true.mp typed ch member)
  · decide +kernel

/-- A server with the first digit key of a French keyboard, which is shifted for the digit. -/
def frenchServer : Server := ⟨⟨1, 8, 9⟩, ⟨2, [0xffe1, 0, 0x26, 0x31]⟩⟩

/-- A client does not read every text that was typed. -/
theorem x11_typing_misread :
    ¬ ∀ (isUppercase : Char → Bool) (server : Server) (text : String) (delayMs : Option UInt64)
      (trace : List (Event Input)), (∀ e ∈ trace, server.Serves e) →
      Steps (x11TypeText isUppercase text false false delayMs).run trace (.ret (.ok ())) →
      reads server (strokes trace) = text.toList := by
  intro always
  have typed : succeeds frenchServer (x11TypeText Char.isUpper "1" false false none) := by
    decide +kernel
  have same := always Char.isUpper frenchServer "1" none _ (serves_traceOf _) (steps_traceOf typed)
  revert same
  decide +kernel

/-! ### Typing through the portal -/

/-- The keysyms pressed. -/
def pressedKeysyms (strokes : List (Stroke Control)) : List UInt32 :=
  strokes.filterMap fun
    | .press (.keysym keysym) => some keysym
    | _ => none

/-- In a Wayland session no text is typed. -/
theorem refuses_wayland {isUppercase : Char → Bool} {env : SessionEnvironment}
    (session : sessionType env = .wayland) (text : String) (clear pressReturn : Bool)
    (delayMs : Option UInt64) :
    Refuses (fun op => deedsOf op ≠ [])
      (nativeTypeText isUppercase env text clear pressReturn delayMs) := by
  rw [nativeTypeText, session]
  split
  · exact refuses_throw
  · exact refuses_of_judged (fails_portalTypeText silent_session text clear pressReturn delayMs)

/-- **Typing through the portal**: whenever a text was typed, the keysyms that were pressed spell
that text. For no text was ever typed: every run stops before the first key, with an error. -/
theorem portal_typing_spelled (isUppercase : Char → Bool) (env : SessionEnvironment)
    (session : sessionType env = .wayland) (text : String) (delayMs : Option UInt64) :
    (∀ trace, Steps (nativeTypeText isUppercase env text false false delayMs).run trace
        (.ret (.ok ())) →
      (pressedKeysyms (strokes trace)).map spells = text.toList.map some) ∧
    ∀ trace rest, Steps (nativeTypeText isUppercase env text false false delayMs).run trace rest →
      deeds trace = [] ∧ rest ≠ .ret (.ok ()) := by
  have refuses := @refuses_wayland isUppercase env session text false false delayMs
  constructor
  · intro trace run
    exact (refuses.never run).elim
  · intro trace rest run
    obtain ⟨silent, never⟩ := refuses trace rest run
    refine ⟨?_, never ()⟩
    apply List.flatMap_eq_nil_iff.mpr
    exact fun e member => not_not.mp (silent e member)

/-- A full-width semicolon, whose keysym would be that of the escape key, is not sent. -/
theorem portal_typing_spelled_semicolon :
    (∀ trace, Steps (nativeTypeText Char.isUpper waylandSession "\uff1b" false false none).run trace
        (.ret (.ok ())) →
      (pressedKeysyms (strokes trace)).map spells = "\uff1b".toList.map some) ∧
    deeds (traceOf usServer
      (nativeTypeText Char.isUpper waylandSession "\uff1b" false false none)) = [] := by
  obtain ⟨spelled, stops⟩ := portal_typing_spelled Char.isUpper waylandSession rfl "\uff1b" none
  have run := steps_play usServer.respond 100
    (nativeTypeText Char.isUpper waylandSession "\uff1b" false false none).run ()
  exact ⟨spelled, (stops _ _ run).1⟩

end Praefectus.Linux
