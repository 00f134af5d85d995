import Praefectus.Native.MacTyping
import Praefectus.Native.Portal
import Praefectus.Text.Trim

/-!
# Names of keys

A key is pressed by its name or by its character, and a hotkey is a list of such keys.
Each platform has a table of names. What becomes of a string that is neither in the table
nor a single character is settled here for every platform.
-/

namespace Praefectus

open Prog

/-! ### macOS -/

namespace Mac

def macKeyNames : List (String × UInt16) := [
  ("return", 0x24), ("enter", 0x24), ("tab", 0x30), ("escape", 0x35), ("esc", 0x35),
  ("delete", 0x75), ("del", 0x75), ("backspace", 0x33), ("space", 0x31), ("up", 0x7E),
  ("down", 0x7D), ("left", 0x7B), ("right", 0x7C), ("home", 0x73), ("end", 0x77),
  ("pageup", 0x74), ("pagedown", 0x79), ("f1", 0x7A), ("f2", 0x78), ("f3", 0x63), ("f4", 0x76),
  ("f5", 0x60), ("f6", 0x61), ("f7", 0x62), ("f8", 0x64), ("f9", 0x65), ("f10", 0x6D),
  ("f11", 0x67), ("f12", 0x6F), ("insert", 0x72), ("printscreen", 0x69)]

def macKeyNameCode (name : String) : Option UInt16 := macKeyNames.lookup name

def macFlagControl : UInt64 := (1 : UInt64) <<< (18 : UInt64)

def macFlagAlternate : UInt64 := (1 : UInt64) <<< (19 : UInt64)

/-- The flags of the modifiers of a hotkey. -/
def macModifiers : List (String × UInt64) := [
  ("cmd", macFlagCommand), ("command", macFlagCommand), ("super", macFlagCommand),
  ("ctrl", macFlagControl), ("control", macFlagControl), ("alt", macFlagAlternate),
  ("option", macFlagAlternate), ("opt", macFlagAlternate), ("shift", macFlagShift)]

def macModifierFlag (name : String) : Option UInt64 := macModifiers.lookup name

/-- The code of the first character. -/
def macFirstCode (key : String) : Option UInt16 :=
  key.toList.head?.bind fun ch => macKeyCode ch.toLower

/-- The code of a named key, or else of the first character of the name. -/
def macCodeForKey (key : String) : Option UInt16 := (macKeyNameCode key).or (macFirstCode key)

def accessibilityPermission : MacM Bool :=
  monadLift (perform (I := MacInput) .accessibilityPermission : Prog MacInput Bool)

def pause : Option UInt64 → MacM Unit
  | some delay => sleep delay
  | none => pure ()

def macPress (key : String) (count : UInt32) (delayMs : Option UInt64) : MacM Unit := do
  if ← accessibilityPermission then
    match macCodeForKey key with
    | some code => (List.range count.toNat).forM fun i => do
        when (i > 0) (pause delayMs)
        ignored (macPostKey code 0)
    | none => throw ⟨⟩
  else throw ⟨⟩

def macHotkey (keys : List String) : MacM Unit := do
  if ← accessibilityPermission then
    match keys.getLast?.bind macCodeForKey with
    | some code =>
      match keys.dropLast.mapM macModifierFlag with
      | some flags => ignored (macPostKey code (flags.foldl (· ||| ·) 0))
      | none => throw ⟨⟩
    | none => throw ⟨⟩
  else throw ⟨⟩

def isKeyEvent : MacOp → Prop
  | .postEvent .. => True
  | _ => False

end Mac

/-! ### Windows -/

namespace Windows

structure KeyboardInput where
  virtualKey : UInt16
  keyUp : Bool
  deriving DecidableEq

inductive WindowsOp where
  | sendInput (inputs : List KeyboardInput)
  | sleep (ms : UInt64)

/-- `SendInput` tells how many of the events were inserted, which nobody looks at. -/
abbrev WindowsInput : Interface where
  Op := WindowsOp
  Ans
    | .sendInput _ => UInt32
    | .sleep _ => Unit

abbrev WindowsM := ExceptT NativeError (Prog WindowsInput)

def sendInput (inputs : List KeyboardInput) : WindowsM Unit := do
  let _ ← (monadLift (perform (I := WindowsInput) (.sendInput inputs)) : WindowsM UInt32)

def pause : Option UInt64 → WindowsM Unit
  | some delay => monadLift (perform (I := WindowsInput) (.sleep delay) : Prog WindowsInput Unit)
  | none => pure ()

def winKeyNames : List (String × UInt16) := [
  ("return", 0x0D), ("enter", 0x0D), ("tab", 0x09), ("escape", 0x1B), ("esc", 0x1B),
  ("backspace", 0x08), ("delete", 0x2E), ("del", 0x2E), ("space", 0x20), ("up", 0x26),
  ("down", 0x28), ("left", 0x25), ("right", 0x27), ("home", 0x24), ("end", 0x23),
  ("pageup", 0x21), ("pagedown", 0x22), ("f1", 0x70), ("f2", 0x71), ("f3", 0x72), ("f4", 0x73),
  ("f5", 0x74), ("f6", 0x75), ("f7", 0x76), ("f8", 0x77), ("f9", 0x78), ("f10", 0x79),
  ("f11", 0x7A), ("f12", 0x7B)]

/-- A letter or a digit, of one byte. -/
def winCharacterCode (key : String) : Option UInt16 :=
  if key.utf8ByteSize = 1 then
    (key.toList.head?.map Char.toUpper).bind fun ch =>
      if ch.isUpper ∨ ch.isDigit then some ch.toNat.toUInt16 else none
  else none

def winKeyCode (key : String) : Option UInt16 := (winKeyNames.lookup key).or (winCharacterCode key)

def winModifiers : List (String × UInt16) :=
  [("ctrl", 0x11), ("alt", 0x12), ("shift", 0x10), ("win", 0x5B)]

def winModifierCode (name : String) : Option UInt16 := winModifiers.lookup name

def winPress (key : String) (count : UInt32) (delayMs : Option UInt64) : WindowsM Unit :=
  match winKeyCode key with
  | some vk => (List.range count.toNat).forM fun i => do
      when (i > 0) (pause delayMs)
      sendInput [⟨vk, false⟩, ⟨vk, true⟩]
  | none => throw ⟨⟩

def winHotkey (keys : List String) : WindowsM Unit :=
  if keys.length < 2 then throw ⟨⟩
  else match keys.getLast?.bind winKeyCode with
    | some actionVk =>
      match keys.dropLast.mapM winModifierCode with
      | some modifierVks => do
        modifierVks.forM fun vk => sendInput [⟨vk, false⟩]
        sendInput [⟨actionVk, false⟩, ⟨actionVk, true⟩]
        modifierVks.reverse.forM fun vk => sendInput [⟨vk, true⟩]
      | none => throw ⟨⟩
    | none => throw ⟨⟩

def isKeyEvent : WindowsOp → Prop
  | .sendInput _ => True
  | .sleep _ => False

end Windows

namespace Linux

def isKeyEvent : InputOp → Prop
  | .call (.xtestFakeInput ..) | .call (.notifyKeyboardKeysym ..) => True
  | _ => False

end Linux

/-! ### Unknown names -/

inductive Platform where
  | linux (env : Linux.SessionEnvironment)
  | macos
  | windows

/-- The names a platform has for keys. -/
def keyNames : Platform → List String
  | .linux _ => keyNameToKeysym.map Prod.fst
  | .macos => Mac.macKeyNames.map Prod.fst
  | .windows => Windows.winKeyNames.map Prod.fst

/-- The names it has for the keys that are held while the last key of a hotkey is pressed. -/
def modifierNames : Platform → List String
  | .linux _ => keyNameToKeysym.map Prod.fst
  | .macos => Mac.macModifiers.map Prod.fst
  | .windows => Windows.winModifiers.map Prod.fst

/-- Neither a name nor a single character. -/
def IsUnknown (names : List String) (key : String) : Prop := key ∉ names ∧ key.length ≠ 1

/-- Some key of the action is unknown where it stands. -/
def NamesUnknownKey (platform : Platform) : Action → Prop
  | .press key .. => IsUnknown (keyNames platform) key
  | .hotkey keys =>
    (∃ key ∈ keys.dropLast, IsUnknown (modifierNames platform) key) ∨
      ∃ key ∈ keys.getLast?, IsUnknown (keyNames platform) key
  | _ => False

/-- The action ends with an error in every run, and no run asks for a key event. -/
def IsRefused : Platform → Action → Prop
  | .linux env, .press key count delayMs =>
    Refuses Linux.isKeyEvent (Linux.nativePress env key count delayMs)
  | .linux env, .hotkey keys => Refuses Linux.isKeyEvent (Linux.nativeHotkey env keys)
  | .macos, .press key count delayMs => Refuses Mac.isKeyEvent (Mac.macPress key count delayMs)
  | .macos, .hotkey keys => Refuses Mac.isKeyEvent (Mac.macHotkey keys)
  | .windows, .press key count delayMs =>
    Refuses Windows.isKeyEvent (Windows.winPress key count delayMs)
  | .windows, .hotkey keys => Refuses Windows.isKeyEvent (Windows.winHotkey keys)
  | _, _ => True

/-- The first letter of the unknown name stands for no key: on Linux there is no X server or
the letter is the null character, on macOS the letter has no key code or a modifier is not a
name. On Windows first letters stand for nothing. -/
def FirstLetterHasNoKey : Platform → Action → Prop
  | .linux env, .press key .. =>
    Linux.sessionType env ≠ .x11 ∨ key.toList.head? = some '\x00'
  | .linux env, .hotkey _ => Linux.sessionType env ≠ .x11
  | .macos, .press key .. => Mac.macFirstCode key = none
  | .macos, .hotkey keys =>
    (∃ key ∈ keys.dropLast, key ∉ modifierNames .macos) ∨
      ∃ key ∈ keys.getLast?, key ∉ keyNames .macos ∧ Mac.macFirstCode key = none
  | _, _ => True

/-! ### Tables -/

/-- A table has a value for exactly the names in it. -/
theorem lookup_none_iff {α : Type} {table : List (String × α)} {name : String} :
    table.lookup name = none ↔ name ∉ table.map Prod.fst := by
  simp only [List.lookup_eq_none_iff, List.mem_map, not_exists, not_and, bne_iff_ne, ne_eq]
  constructor
  · intro absent entry member same
    exact absent entry member same.symm
  · intro absent entry member same
    exact absent entry member same.symm

/-- A list is looked up as a whole exactly if every name of it is in the table. -/
theorem mapM_none_iff {α β : Type} {f : α → Option β} {items : List α} :
    items.mapM f = none ↔ ∃ item ∈ items, f item = none := by
  induction items with
  | nil => simp
  | cons item items ih =>
    rw [List.mapM_cons]
    cases found : f item with
    | none => simp [found]
    | some value =>
      cases rest : items.mapM f with
      | none => simpa [found, rest] using ih
      | some values => simpa [found, rest] using ih

/-! ### Accepted actions -/

theorem press_accepted {isDir : PathBuf → Bool} {key : String} {count : UInt32}
    {delayMs : Option UInt64} (accepted : validateAction isDir (.press key count delayMs) = .ok ()) :
    key ≠ "" ∧ 0 < count.toNat := by
  simp only [validateAction] at accepted
  split at accepted
  next valid =>
    simp only [filled, Bool.and_eq_true, decide_eq_true_eq] at valid
    refine ⟨valid.1.1.1, ?_⟩
    have positive : (1 : UInt32).toNat ≤ count.toNat := UInt32.le_iff_toNat_le.mp valid.1.2.1
    exact positive
  next => contradiction

theorem hotkey_accepted {isDir : PathBuf → Bool} {keys : List String}
    (accepted : validateAction isDir (.hotkey keys) = .ok ()) :
    keys ≠ [] ∧ keys.length ≤ 8 ∧ ∀ key ∈ keys, key ≠ "" := by
  simp only [validateAction] at accepted
  split at accepted
  next valid =>
    simp only [Bool.and_eq_true, decide_eq_true_eq, List.all_eq_true, filled] at valid
    exact ⟨valid.1.1, valid.1.2, fun key member => by simpa using (valid.2 key member).1⟩
  next => contradiction

/-! ### macOS -/

namespace Mac

theorem completes_accessibilityPermission :
    Completes (· = true) accessibilityPermission :=
  completes_ask true (succeeds_pure rfl)

theorem attempts_macPostKey (code : UInt16) (flags : UInt64) :
    Attempts isKeyEvent (macPostKey code flags) := by
  have source : Completes (fun _ => True) createSource := completes_ask (.ok ()) (succeeds_pure trivial)
  have event : Completes (fun _ => True) (createKeyboardEvent code true) :=
    completes_ask (.ok ()) (succeeds_pure trivial)
  apply attempts_bind source
  intro _ _
  apply attempts_bind event
  intro _ _
  exact attempts_first (attempts_ask (.ok ()) trivial)

theorem attempts_ignored {x : MacM Unit} (attempts : Attempts isKeyEvent x) :
    Attempts isKeyEvent (ignored x) := attempts_lift attempts

theorem completes_pause (delayMs : Option UInt64) : Completes (fun _ => True) (pause delayMs) := by
  cases delayMs with
  | none => exact succeeds_pure trivial
  | some delay => exact completes_ask () (succeeds_pure trivial)

theorem macCodeForKey_none {key : String} :
    macCodeForKey key = none ↔ key ∉ keyNames .macos ∧ macFirstCode key = none := by
  rw [macCodeForKey, Option.or_eq_none_iff, macKeyNameCode, lookup_none_iff]
  rfl

theorem macModifierFlag_none {key : String} :
    macModifierFlag key = none ↔ key ∉ modifierNames .macos := lookup_none_iff

theorem refuses_permitted :
    Refuses isKeyEvent (do if ← accessibilityPermission then throw ⟨⟩ else throw ⟨⟩ : MacM Unit) := by
  apply refuses_of_judged
  apply judged_idle_ask id
  intro permitted
  cases permitted <;> exact judged_throw trivial

theorem attempts_permitted {rest : MacM Unit} (attempts : Attempts isKeyEvent rest) :
    Attempts isKeyEvent (do if ← accessibilityPermission then rest else throw ⟨⟩) := by
  apply attempts_bind completes_accessibilityPermission
  rintro _ rfl
  exact attempts

theorem macPress_refused {key : String} {count : UInt32} {delayMs : Option UInt64}
    (positive : 0 < count.toNat) :
    Refuses isKeyEvent (macPress key count delayMs) ↔ macCodeForKey key = none := by
  rw [macPress]
  cases found : macCodeForKey key with
  | none => exact iff_of_true refuses_permitted (by simp)
  | some code =>
    simp only [reduceCtorEq, iff_false]
    apply attempts_not_refuses
    apply attempts_permitted
    refine attempts_forM (by simp; omega) fun i _ => ?_
    apply attempts_bind (succeeds_when (completes_pause delayMs))
    intro _ _
    exact attempts_ignored (attempts_macPostKey code 0)

theorem macHotkey_refused {keys : List String} :
    Refuses isKeyEvent (macHotkey keys) ↔
      (∃ key ∈ keys.dropLast, macModifierFlag key = none) ∨
        keys.getLast?.bind macCodeForKey = none := by
  rw [macHotkey, ← mapM_none_iff]
  cases found : keys.getLast?.bind macCodeForKey with
  | none => exact iff_of_true refuses_permitted (by simp)
  | some code =>
    cases held : keys.dropLast.mapM macModifierFlag with
    | none => exact iff_of_true refuses_permitted (by simp)
    | some flags =>
      simp only [reduceCtorEq, or_self, iff_false]
      apply attempts_not_refuses
      apply attempts_permitted
      exact attempts_ignored (attempts_macPostKey code _)

end Mac

/-! ### Windows -/

namespace Windows

/-- A name that is in no table has to be of one byte, and then it is a single character. -/
theorem winKeyCode_unknown {key : String} (unknown : IsUnknown (keyNames .windows) key) :
    winKeyCode key = none := by
  rw [winKeyCode, Option.or_eq_none_iff, lookup_none_iff]
  refine ⟨unknown.1, ?_⟩
  rw [winCharacterCode, if_neg]
  intro one
  have short : key.toList.length ≤ 1 := by
    rw [← one, String.utf8ByteSize_eq]
    exact length_le_utf8 key.toList
  have some : key.toList ≠ [] := by
    intro empty
    rw [String.utf8ByteSize_eq, empty] at one
    contradiction
  have positive := List.length_pos_of_ne_nil some
  apply unknown.2
  rw [← String.length_toList]
  omega

/-- On Windows no key is pressed by its first letter. -/
theorem winPress_refused {key : String} (count : UInt32) (delayMs : Option UInt64)
    (unknown : IsUnknown (keyNames .windows) key) :
    Refuses isKeyEvent (winPress key count delayMs) := by
  rw [winPress, winKeyCode_unknown unknown]
  exact refuses_throw

theorem winHotkey_refused {keys : List String} (unknown : NamesUnknownKey .windows (.hotkey keys)) :
    Refuses isKeyEvent (winHotkey keys) := by
  rw [winHotkey]
  by_cases few : keys.length < 2
  · rw [if_pos few]
    exact refuses_throw
  rw [if_neg few]
  cases found : keys.getLast?.bind winKeyCode with
  | none => exact refuses_throw
  | some actionVk =>
    cases held : keys.dropLast.mapM winModifierCode with
    | none => exact refuses_throw
    | some modifierVks =>
      exfalso
      rcases unknown with ⟨key, member, unknown⟩ | ⟨key, last, unknown⟩
      · have absent : keys.dropLast.mapM winModifierCode = none := by
          rw [mapM_none_iff]
          exact ⟨key, member, lookup_none_iff.mpr unknown.1⟩
        rw [absent] at held
        contradiction
      · rw [Option.mem_def.mp last] at found
        simp [winKeyCode_unknown unknown] at found

end Windows

/-! ### Linux -/

namespace Linux

theorem completes_call {request : InputCall} (value : request.Result) :
    Completes (· = value) (call request) :=
  completes_ask (Except.ok value) (succeeds_pure rfl)

theorem completes_pause (delayMs : Option UInt64) : Completes (fun _ => True) (pause delayMs) := by
  cases delayMs with
  | none => exact succeeds_pure trivial
  | some delay => exact succeeds_when (completes_ask () (succeeds_pure trivial))

/-- A key of eight, each of which carries one of the keysyms. -/
theorem find_keysym {keysyms : List UInt32} {keysym : UInt32} (few : keysyms.length ≤ 8)
    (member : keysym ∈ keysyms) :
    ∃ offset < 8, KeyboardMapping.find? ⟨1, keysyms⟩ 8 keysym = some offset := by
  obtain ⟨i, inside, same⟩ := List.mem_iff_getElem.mp member
  have hit : (KeyboardMapping.find? ⟨1, keysyms⟩ 8 keysym).isSome := by
    rw [KeyboardMapping.find?, List.find?_isSome]
    refine ⟨i, List.mem_range.mpr (by simpa using Nat.lt_of_lt_of_le inside few), ?_⟩
    simp [KeyboardMapping.at?, inside, same]
  obtain ⟨offset, found⟩ := Option.isSome_iff_exists.mp hit
  refine ⟨offset, ?_, found⟩
  simpa using List.mem_range.mp (List.mem_of_find?_eq_some found)

/-- A server with eight keys. -/
def eightKeys : Setup := ⟨0, 8, 15⟩

theorem completes_keysymToKeycode {keysyms : List UInt32} {keysym : UInt32}
    (few : keysyms.length ≤ 8) (member : keysym ∈ keysyms) :
    Completes (fun _ => True) (keysymToKeycode eightKeys keysym) := by
  obtain ⟨offset, small, found⟩ := find_keysym few member
  apply succeeds_bind (@completes_call (.getKeyboardMapping _ _) (⟨1, keysyms⟩ : KeyboardMapping))
  rintro _ rfl
  have key : eightKeys.maxKeycode - eightKeys.minKeycode + 1 = 8 := by decide
  have inRange : eightKeys.minKeycode.toNat + offset < 256 := by
    have first : eightKeys.minKeycode.toNat = 8 := rfl
    omega
  simp only [key, found, inRange, if_true]
  exact succeeds_pure trivial

theorem attempts_x11FakeInput (setup : Setup) (type detail : UInt8) :
    Attempts isKeyEvent (x11FakeInput setup type detail) :=
  attempts_first (attempts_ask (Except.ok ()) trivial)

/-- Opening a session of the portal takes no key event. -/
theorem keyless_session (op : InputOp) (opens : OpensSession op) : ¬ isKeyEvent op := by
  cases op with
  | call request =>
    cases request with
    | xtestFakeInput | notifyKeyboardKeysym => exact opens.elim
    | _ => exact id
  | _ => exact id

/-- Every name that is not empty has a keysym. -/
theorem keysymForKey_isSome {key : String} (filled : key ≠ "") : (keysymForKey key).isSome := by
  cases chars : key.toList with
  | nil => exact absurd (String.toList_eq_nil_iff.mp chars) filled
  | cons first rest => simp [keysymForKey, chars]

/-- An unknown name has the keysym of its first letter, which is missing for the null
character only. -/
theorem keysym_zero_iff {env : SessionEnvironment} {key : String} (filled : key ≠ "")
    (unknown : IsUnknown (keyNames (.linux env)) key) :
    (keysymForKey key).getD 0 = 0 ↔ key.toList.head? = some '\x00' := by
  have absent : keysymForName key = none := lookup_none_iff.mpr unknown.1
  cases chars : key.toList with
  | nil => exact absurd (String.toList_eq_nil_iff.mp chars) filled
  | cons first rest =>
    simp only [keysymForKey, absent, chars, Option.none_or, List.head?_cons, Option.map_some,
      Option.getD_some, Option.some.injEq]
    constructor
    · intro zero
      by_cases tab : first = '\t'
      · rw [tab] at zero
        contradiction
      by_cases newline : first = '\n'
      · rw [newline] at zero
        contradiction
      rw [characterToKeysym_other tab newline] at zero
      exact Char.ext zero
    · rintro rfl
      decide

theorem x11Press_refused {env : SessionEnvironment} {key : String} {count : UInt32}
    {delayMs : Option UInt64} (filled : key ≠ "") (positive : 0 < count.toNat)
    (unknown : IsUnknown (keyNames (.linux env)) key) :
    Refuses isKeyEvent (x11Press key count delayMs) ↔ key.toList.head? = some '\x00' := by
  rw [← keysym_zero_iff filled unknown]
  by_cases zero : (keysymForKey key).getD 0 = 0
  · refine iff_of_true ?_ zero
    apply refuses_of_judged
    refine judged_bind fun answer => ⟨(), ⟨id, rfl⟩, ?_⟩
    cases answer with
    | ok setup =>
      -- the keysym is looked at before the mapping is asked for
      simp only [zero, if_true]
      exact trivial
    | error => trivial
  · refine iff_of_false (attempts_not_refuses ?_) zero
    apply attempts_bind (@completes_call .connect eightKeys)
    rintro _ rfl
    simp only [zero, if_false]
    apply attempts_bind
      (@completes_keysymToKeycode [(keysymForKey key).getD 0] _ (by simp) List.mem_cons_self)
    intro keycode _
    refine attempts_forM (by simp; omega) fun i _ => ?_
    apply attempts_bind (succeeds_when (completes_pause delayMs))
    intro _ _
    exact attempts_first (attempts_x11FakeInput eightKeys 2 keycode)

theorem nativePress_refused {env : SessionEnvironment} {key : String} {count : UInt32}
    {delayMs : Option UInt64} (filled : key ≠ "") (positive : 0 < count.toNat)
    (unknown : IsUnknown (keyNames (.linux env)) key) :
    Refuses isKeyEvent (nativePress env key count delayMs) ↔
      sessionType env ≠ .x11 ∨ key.toList.head? = some '\x00' := by
  have counted : count ≠ 0 := by
    rintro rfl
    contradiction
  have nonempty : key.isEmpty = false := by simpa using filled
  simp only [nativePress, counted, nonempty, Bool.false_eq_true, or_self, if_false]
  cases session : sessionType env with
  | x11 => simpa using x11Press_refused filled positive unknown
  | wayland =>
    have fails := fails_portalPress keyless_session key count delayMs
    exact iff_of_true (refuses_of_judged fails) (.inl (by simp))
  | unknown => exact iff_of_true refuses_throw (.inl (by simp))

/-- Whatever the keys are called, some run of a hotkey presses the first of them. -/
theorem attempts_x11Hotkey {keys : List String} (nonempty : keys ≠ []) (few : keys.length ≤ 8)
    (filled : ∀ key ∈ keys, key ≠ "") : Attempts isKeyEvent (x11Hotkey keys) := by
  let keysyms := keys.map fun key => (keysymForKey key).getD 0
  apply attempts_bind (@completes_call .connect eightKeys)
  rintro _ rfl
  refine attempts_bind (succeeds_mapM fun key member => ?_) ?_
  · obtain ⟨keysym, found⟩ := Option.isSome_iff_exists.mp (keysymForKey_isSome (filled key member))
    have listed : keysym ∈ keysyms := List.mem_map.mpr ⟨key, member, by rw [found]; rfl⟩
    rw [found]
    exact completes_keysymToKeycode (by simpa [keysyms] using few) listed
  · intro keycodes long
    refine attempts_first
      (attempts_forM ?_ fun keycode _ => attempts_x11FakeInput eightKeys 2 keycode)
    rintro rfl
    exact nonempty (List.eq_nil_of_length_eq_zero long.symm)

theorem nativeHotkey_refused {env : SessionEnvironment} {keys : List String} (nonempty : keys ≠ [])
    (few : keys.length ≤ 8) (filled : ∀ key ∈ keys, key ≠ "") :
    Refuses isKeyEvent (nativeHotkey env keys) ↔ sessionType env ≠ .x11 := by
  have occupied : keys.isEmpty = false := by simpa using nonempty
  simp only [nativeHotkey, occupied, Bool.false_eq_true, if_false]
  cases session : sessionType env with
  | x11 => simpa using attempts_not_refuses (attempts_x11Hotkey nonempty few filled)
  | wayland =>
    have fails := fails_portalHotkey keyless_session keys
    exact iff_of_true (refuses_of_judged fails) (by simp)
  | unknown => exact iff_of_true refuses_throw (by simp)

end Linux

/-! ### Main theorem -/

/-- **Unknown names of keys**: an accepted action that names an unknown key is refused
exactly if the first letter of the name stands for no key either. -/
theorem unknown_key_refused_iff (platform : Platform) (isDir : PathBuf → Bool) (action : Action)
    (accepted : validateAction isDir action = .ok ()) (unknown : NamesUnknownKey platform action) :
    IsRefused platform action ↔ FirstLetterHasNoKey platform action := by
  cases action with
  | press key count delayMs =>
    obtain ⟨filled, positive⟩ := press_accepted accepted
    cases platform with
    | linux env => exact Linux.nativePress_refused filled positive unknown
    | macos =>
      rw [IsRefused, Mac.macPress_refused positive, Mac.macCodeForKey_none]
      exact and_iff_right unknown.1
    | windows => exact iff_of_true (Windows.winPress_refused count delayMs unknown) trivial
  | hotkey keys =>
    obtain ⟨nonempty, few, filled⟩ := hotkey_accepted accepted
    cases platform with
    | linux env => exact Linux.nativeHotkey_refused nonempty few filled
    | macos =>
      rw [IsRefused, Mac.macHotkey_refused]
      have last := List.getLast?_eq_some_getLast nonempty
      simp only [FirstLetterHasNoKey, Mac.macModifierFlag_none, last, Option.bind_some,
        Mac.macCodeForKey_none, Option.mem_some_iff, exists_eq_left']
    | windows => exact iff_of_true (Windows.winHotkey_refused unknown) trivial
  | _ => exact absurd unknown id

/-- A session on an X server. -/
def x11Session : Linux.SessionEnvironment := ⟨some "x11", false, true⟩

/-- The name of the key on the X server, which the table of names has in lower case. -/
def backSpace : Action := .press "BackSpace" 1 none

theorem backSpace_unknown : NamesUnknownKey (.linux x11Session) backSpace :=
  ⟨by decide, by decide⟩

theorem unknown_key_refused_iff_backSpace :
    validateAction (fun _ => false) backSpace = .ok () ∧
      NamesUnknownKey (.linux x11Session) backSpace ∧
        (IsRefused (.linux x11Session) backSpace ↔
          FirstLetterHasNoKey (.linux x11Session) backSpace) :=
  ⟨by decide, backSpace_unknown,
    unknown_key_refused_iff _ (fun _ => false) _ (by decide) backSpace_unknown⟩

/-- The name of the key on the X server is typed as its first letter. -/
theorem unknown_key_typed :
    ¬ ∀ (platform : Platform) (isDir : PathBuf → Bool) (action : Action),
      validateAction isDir action = .ok () → NamesUnknownKey platform action →
        IsRefused platform action := by
  intro always
  have refused : IsRefused (.linux x11Session) backSpace :=
    always _ (fun _ => false) _ (by decide) backSpace_unknown
  have reason := (Linux.nativePress_refused (by decide) (by decide) backSpace_unknown).mp refused
  revert reason
  decide

end Praefectus
