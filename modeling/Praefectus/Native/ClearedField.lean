import Praefectus.Native.Typing

/-!
# Typing into a field that is cleared first

A text field with a selection, edited by the keystrokes of a dispatch that clears it and
types a text.
-/

namespace Praefectus.Linux

open Prog

/-! ### Text fields -/

/-- A text field, of which nothing or all is selected. -/
structure Field where
  content : List Char
  selected : Bool
  deriving DecidableEq

namespace Field

/-- With control the letter a selects all. Backspace deletes the selection, or else the last
character, and a character replaces the selection or is added. -/
def press (field : Field) (keystroke : Keystroke) : Field :=
  if keystroke.control then
    if keystroke.keysym.bind spells = some 'a' then { field with selected := true } else field
  else if keystroke.keysym = some 0xff08 then
    ⟨if field.selected then [] else field.content.dropLast, false⟩
  else match keystroke.character with
    | some ch => ⟨(if field.selected then [] else field.content) ++ [ch], false⟩
    | none => field

/-- The field after a sequence of strokes. -/
def after (server : Server) (field : Field) (strokes : List (Stroke Control)) : Field :=
  (keystrokes server [] strokes).foldl press field

/-- A keystroke that enters a character adds it. -/
theorem press_character {field : Field} {keysym : Option UInt32} {ch : Char}
    (spelled : keysym.bind spells = some ch) :
    field.press ⟨false, keysym⟩ = ⟨(if field.selected then [] else field.content) ++ [ch], false⟩ := by
  have other : keysym ≠ some 0xff08 := by
    rintro rfl
    have silent : spells 0xff08 = none := by decide
    exact absurd spelled (by simp [silent])
  simp [press, Keystroke.character, other, spelled]

/-- Keystrokes that enter the characters of a text add that text. -/
theorem foldl_press {text : List Char} {stroke : Char → Keystroke}
    (plain : ∀ ch ∈ text, (stroke ch).control = false ∧ (stroke ch).keysym.bind spells = some ch)
    (field : Field) : ((text.map stroke).foldl press field).content =
      (if field.selected ∧ text ≠ [] then [] else field.content) ++ text := by
  induction text generalizing field with
  | nil => simp
  | cons ch text ih =>
    obtain ⟨⟨control, spelled⟩, rest⟩ := List.forall_mem_cons.mp plain
    have entered : field.press (stroke ch) =
        ⟨(if field.selected then [] else field.content) ++ [ch], false⟩ := by
      have same : stroke ch = ⟨false, (stroke ch).keysym⟩ := by rw [← control]
      rw [same]
      exact press_character spelled
    rw [List.map_cons, List.foldl_cons, ih rest, entered]
    simp

end Field

/-! ### What a dispatch types -/

def inputBoundary : Boundary Input where
  isCancelled := perform (I := Input) .isCancelled
  nowMs := perform (I := Input) .nowMs

/-- The dispatch of a text, on Linux. -/
def dispatchText (isUppercase : Char → Bool) (env : SessionEnvironment) (deadlineAtMs : Int64)
    (text : String) (clear pressReturn : Bool) (delayMs : Option UInt64) : DispatchM Input Unit :=
  dispatchTypeText inputBoundary deadlineAtMs
    (fun text clear pressReturn delayMs =>
      (nativeTypeText isUppercase env text clear pressReturn delayMs).run)
    text clear pressReturn delayMs

section Dispatch

variable {known : Option Server} {deadlineAtMs : Int64}

theorem emits_isInterrupted :
    Emits (desktop known) [] (isInterrupted inputBoundary deadlineAtMs) := by
  have asked := @yields_lift Input DispatchError Deed (desktop known) .isCancelled
    (fun events _ => events = []) fun _ _ => rfl
  have timed := @yields_lift Input DispatchError Deed (desktop known) .nowMs
    (fun events _ => events = []) fun _ _ => rfl
  refine emits_bind asked fun cancelled => ?_
  cases cancelled with
  | true => exact emits_pure
  | false => exact emits_bind timed fun _ => emits_pure

theorem emits_checkTyping (effectStarted : Bool) :
    Emits (desktop known) [] (checkTyping inputBoundary deadlineAtMs effectStarted) := by
  refine emits_bind emits_isInterrupted fun interrupted => ?_
  cases interrupted with
  | false => exact emits_pure
  | true =>
    cases effectStarted with
    | true => exact yields_throw
    | false =>
      refine yields_bind fun _ cancelled _ _ => ?_
      cases cancelled <;> exact yields_throw

variable {typeText : String → Bool → Bool → Option UInt64 → Prog Input (Except NativeError Unit)}
  {typed : Char → List Deed} {P : Char → Prop} {delayMs : Option UInt64}

theorem yields_sendText {Q : List Deed → Unit → Prop} {text : String} {clear pressReturn : Bool}
    (sends : Yields (desktop known) Q (ExceptT.mk (typeText text clear pressReturn delayMs))) :
    Yields (desktop known) Q (sendText typeText text clear pressReturn delayMs) := by
  intro trace _ served run
  obtain ⟨first, answer, rest, rfl, asked, tail⟩ := steps_try_ok run
  obtain ⟨result, whole, same⟩ := steps_lift.mp asked
  cases same
  cases answer with
  | error => exact absurd (steps_ret.mp tail).2 (by simp)
  | ok value =>
    obtain ⟨rfl, _⟩ := steps_ret.mp tail
    rw [List.append_nil] at served ⊢
    exact sends first value served whole

/-- The chunks typed so far, and the one begun, make up the characters so far. -/
def Chunked (typed : Char → List Deed) (P : Char → Prop) (done : List Char)
    (chunk : String × Bool) (past : List Deed) : Prop :=
  ∃ sent, done = sent ++ chunk.1.toList ∧ past = sent.flatMap typed ∧ ∀ ch ∈ sent, P ch

theorem yields_typeCharacter
    (sends : ∀ text : String, Yields (desktop known)
      (fun events _ => (∀ ch ∈ text.toList, P ch) ∧ events = text.toList.flatMap typed)
      (ExceptT.mk (typeText text false false delayMs)))
    {done : List Char} {chunk : String × Bool} {past : List Deed} (character : Char)
    (chunked : Chunked typed P done chunk past) :
    Yields (desktop known)
      (fun events chunk' => Chunked typed P (done ++ [character]) chunk' (past ++ events))
      (typeCharacter inputBoundary deadlineAtMs typeText delayMs chunk character) := by
  obtain ⟨sent, rfl, rfl, holds⟩ := chunked
  refine yields_bind (yields_mono (emits_checkTyping chunk.2) ?_)
  rintro _ _ rfl
  by_cases full : (chunk.1.push character).length = chunkSize delayMs
  · simp only [full, if_true]
    refine yields_bind (yields_mono (yields_sendText (sends _)) ?_)
    rintro _ _ ⟨each, rfl⟩
    refine yields_pure ⟨sent ++ (chunk.1.push character).toList, ?_, ?_, ?_⟩
    · simp
    · simp
    · exact List.forall_mem_append.mpr ⟨holds, each⟩
  · simp only [full, if_false]
    exact yields_pure ⟨sent, by simp, by simp, holds⟩

/-- A dispatch that clears does so first and then types all characters in order. -/
theorem yields_dispatchTypeText {cleared : List Deed → Prop}
    (clears : Yields (desktop known) (fun events _ => cleared events)
      (ExceptT.mk (typeText "" true false none)))
    (sends : ∀ text : String, Yields (desktop known)
      (fun events _ => (∀ ch ∈ text.toList, P ch) ∧ events = text.toList.flatMap typed)
      (ExceptT.mk (typeText text false false delayMs)))
    (text : String) :
    Yields (desktop known) (fun events _ => text ≠ "" ∧ (∀ ch ∈ text.toList, P ch) ∧
        ∃ before, cleared before ∧ events = before ++ text.toList.flatMap typed)
      (dispatchTypeText inputBoundary deadlineAtMs typeText text true false delayMs) := by
  rw [dispatchTypeText]
  split
  next => exact yields_throw
  next valid =>
    have some : text ≠ "" := fun none => valid (.inl none)
    refine yields_bind (yields_mono (yields_sendText clears) ?_)
    intro before _ isCleared
    have loop := @yields_foldlM _ _ _ _ _ (desktop known)
      (typeCharacter inputBoundary deadlineAtMs typeText delayMs) (Chunked typed P) []
      text.toList ("", true) [] ⟨[], rfl, rfl, List.forall_mem_nil _⟩
      fun done chunk character past _ chunked => yields_typeCharacter sends character chunked
    refine yields_bind (yields_mono loop ?_)
    rintro events ⟨chunk, started⟩ ⟨sent, whole, same, holds⟩
    rw [List.nil_append] at whole same
    subst same
    have last : Yields (desktop known) (fun events _ => (∀ ch ∈ chunk.toList, P ch) ∧
        events = chunk.toList.flatMap typed)
        (when (chunk ≠ "") (sendText typeText chunk false false delayMs)) := by
      refine yields_when (fun _ => yields_sendText (sends chunk)) fun none => ?_
      rw [not_not.mp none]
      exact ⟨List.forall_mem_nil _, rfl⟩
    refine yields_bind (yields_mono last ?_)
    rintro _ _ ⟨each, rfl⟩
    refine yields_mono (emits_bind (emits_checkTyping _) fun _ => emits_pure) ?_
    rintro _ _ rfl
    refine ⟨some, ?_, before, isCleared, ?_⟩
    · rw [whole]
      exact List.forall_mem_append.mpr ⟨holds, each⟩
    · simp [whole]

end Dispatch

/-! ### Keystrokes of a cleared text -/

def IsPrintableAscii (ch : Char) : Prop := ' ' ≤ ch ∧ ch ≤ '~'

instance (ch : Char) : Decidable (IsPrintableAscii ch) := inferInstanceAs (Decidable (_ ∧ _))

/-- A keyboard that types every printable character, with a control key of its own. -/
structure TypesCorrectly (server : Server) (isUppercase : Char → Bool) : Prop where
  control : server.modifier (server.key 0xffe3) = some .control
  character : ∀ ch, IsPrintableAscii ch →
    TypesAs server (needsShift isUppercase ch) (characterToKeysym ch) ch

section Keystrokes

variable {server : Server} {isUppercase : Char → Bool}

/-- A control that is no modifier, between presses and releases of one that is. -/
theorem keystrokes_cleared {control letter key : Control} (rest : List (Stroke Control))
    (holds : server.modifier control = some .control) (plain : server.modifier letter = none)
    (plain' : server.modifier key = none) :
    keystrokes server [] (Stroke.chord [control, letter] ++ Stroke.tap key ++ rest) =
      ⟨true, server.keysymOf false letter⟩ :: ⟨false, server.keysymOf false key⟩ ::
        keystrokes server [] rest := by
  have isModifier : server.modifier control ≠ none := by simp [holds]
  have other : control ≠ letter := fun same => isModifier (same ▸ plain)
  simp [Stroke.chord, Stroke.tap, keystrokes, holds, plain, plain', other]

theorem keystrokes_x11Text {text : List Char} (can : ∀ ch ∈ text, CanType server isUppercase ch)
    (plain : ∀ ch ∈ text, server.modifier (server.key (characterToKeysym ch)) = none) :
    keystrokes server [] (strokesOf (text.flatMap (x11Typed server isUppercase))) =
      text.map fun ch => ⟨false, server.keysymOf (needsShift isUppercase ch)
        (server.key (characterToKeysym ch))⟩ := by
  induction text with
  | nil => rfl
  | cons ch text ih =>
    obtain ⟨canFirst, canRest⟩ := List.forall_mem_cons.mp can
    obtain ⟨plainFirst, plainRest⟩ := List.forall_mem_cons.mp plain
    obtain ⟨_, _, same, _, _, typed⟩ := keystrokes_x11Typed canFirst []
      (strokesOf (text.flatMap (x11Typed server isUppercase)))
    obtain ⟨rfl, rfl⟩ := typed plainFirst rfl
    rw [List.flatMap_cons, strokesOf_append, same, ih canRest plainRest]
    rfl

/-! ### Main theorem -/

/-- A field in which all was selected, one key was tapped and a text typed holds the text
exactly if the key enters no character. -/
theorem cleared_content (field : Field) {letter key : Option UInt32} {text : List Char}
    {stroke : Char → Keystroke} (selects : letter.bind spells = some 'a') (nonempty : text ≠ [])
    (plain : ∀ ch ∈ text, (stroke ch).control = false ∧ (stroke ch).keysym.bind spells = some ch) :
    ((⟨true, letter⟩ :: ⟨false, key⟩ :: text.map stroke).foldl Field.press field).content = text ↔
      key.bind spells = none := by
  have selected : field.press ⟨true, letter⟩ = { field with selected := true } := by
    simp [Field.press, selects]
  rw [List.foldl_cons, selected, List.foldl_cons, Field.foldl_press plain]
  cases entered : key.bind spells with
  | none =>
    by_cases backspace : key = some 0xff08
    · simp [Field.press, backspace]
    · simp [Field.press, backspace, Keystroke.character, entered, nonempty]
  | some ch =>
    rw [Field.press_character entered]
    simp

end Keystrokes

section Sessions

variable {isUppercase : Char → Bool} {env : SessionEnvironment} {server : Server}
  {deadlineAtMs : Int64} {text : String} {delayMs : Option UInt64}

theorem yields_nativeTypeText {known : Option Server} {Q : List Deed → Unit → Prop}
    {clear pressReturn : Bool}
    (onX11 : sessionType env = .x11 →
      Yields (desktop known) Q (x11TypeText isUppercase text clear pressReturn delayMs))
    (onWayland : sessionType env = .wayland →
      Yields (desktop known) Q (portalTypeText text clear pressReturn delayMs)) :
    Yields (desktop known) Q (nativeTypeText isUppercase env text clear pressReturn delayMs) := by
  rw [nativeTypeText]
  split
  next => exact yields_throw
  next => exact yields_session onX11 onWayland

theorem yields_dispatch_x11 (session : sessionType env = .x11) :
    Yields (desktop (some server)) (fun events _ => text ≠ "" ∧
        (∀ ch ∈ text.toList, CanType server isUppercase ch) ∧
        events = x11Cleared server ++ text.toList.flatMap (x11Typed server isUppercase))
      (dispatchText isUppercase env deadlineAtMs text true false delayMs) := by
  have elsewhere {Q : Prop} (wayland : sessionType env = .wayland) : Q :=
    absurd (session.symm.trans wayland) (by simp)
  have clears : Yields (desktop (some server)) (fun events _ => events = x11Cleared server)
      (ExceptT.mk (nativeTypeText isUppercase env "" true false none).run) := by
    change Yields _ _ (nativeTypeText isUppercase env "" true false none)
    refine yields_nativeTypeText (fun _ => ?_) elsewhere
    refine yields_mono (yields_x11TypeText "" true false none) ?_
    rintro _ _ ⟨_, _, rfl⟩
    simp
  have sends (chunk : String) : Yields (desktop (some server)) (fun events _ =>
      (∀ ch ∈ chunk.toList, CanType server isUppercase ch) ∧
        events = chunk.toList.flatMap (x11Typed server isUppercase))
      (ExceptT.mk (nativeTypeText isUppercase env chunk false false delayMs).run) := by
    refine yields_nativeTypeText (fun _ => ?_) elsewhere
    refine yields_mono (yields_x11TypeText chunk false false delayMs) ?_
    rintro _ _ ⟨can, _, rfl⟩
    exact ⟨can, by simp⟩
  refine yields_mono (yields_dispatchTypeText clears sends text) ?_
  rintro _ _ ⟨nonempty, can, _, rfl, rfl⟩
  exact ⟨nonempty, can, rfl⟩

/-- Elsewhere no dispatch succeeds. -/
theorem yields_dispatch_elsewhere {known : Option Server} (session : sessionType env ≠ .x11) :
    Yields (desktop known) (fun _ _ => False)
      (dispatchText isUppercase env deadlineAtMs text true false delayMs) := by
  have refused (chunk : String) (clear : Bool) (delay : Option UInt64) :
      Yields (desktop known) (fun _ _ => False)
        (ExceptT.mk (nativeTypeText isUppercase env chunk clear false delay).run) := by
    refine yields_nativeTypeText (fun x11 => absurd x11 session) fun _ _ _ _ run => ?_
    exact (refuses_of_judged (fails_portalTypeText silent_session _ _ _ _)).never run
  have sends (chunk : String) : Yields (desktop known) (fun events _ =>
      (∀ ch ∈ chunk.toList, True) ∧ events = chunk.toList.flatMap fun _ => [])
      (ExceptT.mk (nativeTypeText isUppercase env chunk false false delayMs).run) :=
    yields_mono (refused chunk false delayMs) fun _ _ none => none.elim
  refine yields_mono (yields_dispatchTypeText (refused "" true none) sends text) ?_
  rintro _ _ ⟨_, _, _, none, _⟩
  exact none

end Sessions

/-- **Typing with clear**: on Linux a dispatch that clears a field and types a text leaves
the text in it exactly if it does not go through the X server, where alone it may succeed, or
the key of the letter B enters no character without shift. -/
theorem cleared_field (isUppercase : Char → Bool) (lower : isUppercase 'a' = false)
    (env : SessionEnvironment) (server : Server) (correct : TypesCorrectly server isUppercase)
    (deadlineAtMs : Int64) (field : Field) (text : String)
    (printable : ∀ ch ∈ text.toList, IsPrintableAscii ch) (delayMs : Option UInt64)
    (trace : List (Event Input)) (served : ∀ e ∈ trace, server.Serves e)
    (run : Steps (dispatchText isUppercase env deadlineAtMs text true false delayMs).run trace
      (.ret (.ok ()))) :
    (field.after server (strokes trace)).content = text.toList ↔
      (sessionType env = .x11 → (server.keysymOf false (server.key 0x42)).bind spells = none) := by
  have known : ∀ e ∈ trace, (desktop (some server)).serves e := by
    intro e member server' same
    cases same
    exact served e member
  rw [Field.after, strokes]
  cases session : sessionType env with
  | x11 =>
    obtain ⟨nonempty, can, done⟩ := yields_dispatch_x11 session trace () known run
    have done : deeds trace = _ := done
    have letter : TypesAs server (needsShift isUppercase 'a') 0x61 'a' :=
      correct.character 'a' ⟨by decide, by decide⟩
    have unshifted : needsShift isUppercase 'a' = false := by simp [needsShift, lower, isShiftSymbol]
    rw [unshifted] at letter
    have plain : server.modifier (server.key 0x42) = none :=
      (correct.character 'B' ⟨by decide, by decide⟩).1
    have typed ch member := correct.character ch (printable ch member)
    rw [done, strokesOf_append, x11Cleared, strokesOf_append, strokesOf_chordOf, strokesOf_tapped,
      keystrokes_cleared _ correct.control letter.1 plain,
      keystrokes_x11Text can fun ch member => (typed ch member).1,
      cleared_content field letter.2 (fun none => nonempty (String.toList_eq_nil_iff.mp none))
        fun ch member => ⟨rfl, (typed ch member).2⟩]
    simp
  | wayland | unknown =>
    have elsewhere : sessionType env ≠ .x11 := by simp [session]
    exact (yields_dispatch_elsewhere elsewhere trace () known run).elim

/-- A US keyboard types every printable character. -/
theorem typesCorrectly_us : TypesCorrectly usServer Char.isUpper where
  control := by decide +kernel
  character := by
    have each : ∀ n : Fin 95, TypesAs usServer
        (needsShift Char.isUpper (Char.ofNat (n + 32)))
        (characterToKeysym (Char.ofNat (n + 32))) (Char.ofNat (n + 32)) := by decide +kernel
    intro ch printable
    have inside : 32 ≤ ch.toNat ∧ ch.toNat ≤ 126 := printable
    have same : Char.ofNat ((⟨ch.toNat - 32, by omega⟩ : Fin 95) + 32) = ch := by
      have back : ch.toNat - 32 + 32 = ch.toNat := by omega
      simp [back]
    rw [← same]
    exact each _

theorem printable_hi : ∀ ch ∈ "Hi".toList, IsPrintableAscii ch := by
  intro ch member
  have either : ch = 'H' ∨ ch = 'i' := by simpa using member
  rcases either with rfl | rfl <;> decide

theorem cleared_field_us :
    (Field.after usServer ⟨"old".toList, false⟩ (strokes (traceOf usServer
        (dispatchText Char.isUpper x11Session 1 "Hi" true false none)))).content ≠ "Hi".toList := by
  have exactly := cleared_field Char.isUpper rfl x11Session usServer typesCorrectly_us 1
    ⟨"old".toList, false⟩ "Hi" printable_hi none _ (serves_traceOf _)
    (steps_traceOf (by decide +kernel))
  exact mt exactly.mp (by decide +kernel)

/-- A letter b is left in front of the text. -/
theorem cleared_field_stray :
    ¬ ∀ (isUppercase : Char → Bool) (env : SessionEnvironment) (server : Server)
      (deadlineAtMs : Int64) (field : Field) (text : String) (delayMs : Option UInt64)
      (trace : List (Event Input)), isUppercase 'a' = false → TypesCorrectly server isUppercase →
      (∀ ch ∈ text.toList, IsPrintableAscii ch) → (∀ e ∈ trace, server.Serves e) →
      Steps (dispatchText isUppercase env deadlineAtMs text true false delayMs).run trace
        (.ret (.ok ())) →
      (field.after server (strokes trace)).content = text.toList := by
  intro always
  have typed : succeeds usServer (dispatchText Char.isUpper x11Session 1 "Hi" true false none) := by
    decide +kernel
  have same := always Char.isUpper x11Session usServer 1 ⟨"old".toList, false⟩ "Hi" none _ rfl
    typesCorrectly_us printable_hi (serves_traceOf _) (steps_traceOf typed)
  revert same
  decide +kernel

end Praefectus.Linux
