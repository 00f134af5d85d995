import Praefectus.Program.Tree

/-!
# Keysyms and keyboard mappings

The names and characters that stand for keysyms, the mapping of an X server from
keycodes to keysyms, and what a client reads from the keys it is sent.
-/

namespace Praefectus

/-! ### Keysyms -/

/-- The names of keys, all in lower case. -/
def keyNameToKeysym : List (String × UInt32) := [
  ("backspace", 0xff08), ("tab", 0xff09), ("return", 0xff0d), ("enter", 0xff0d),
  ("escape", 0xff1b), ("esc", 0xff1b), ("delete", 0xffff), ("del", 0xffff), ("home", 0xff50),
  ("end", 0xff57), ("pageup", 0xff55), ("page_up", 0xff55), ("pagedown", 0xff56),
  ("page_down", 0xff56), ("insert", 0xff63), ("printscreen", 0xff61), ("print", 0xff61),
  ("scrolllock", 0xff14), ("pause", 0xff13), ("numlock", 0xff7f), ("left", 0xff51),
  ("up", 0xff52), ("right", 0xff53), ("down", 0xff54), ("f1", 0xffbe), ("f2", 0xffbf),
  ("f3", 0xffc0), ("f4", 0xffc1), ("f5", 0xffc2), ("f6", 0xffc3), ("f7", 0xffc4),
  ("f8", 0xffc5), ("f9", 0xffc6), ("f10", 0xffc7), ("f11", 0xffc8), ("f12", 0xffc9),
  ("shift", 0xffe1), ("shift_l", 0xffe1), ("shift_r", 0xffe2), ("ctrl", 0xffe3),
  ("ctrl_l", 0xffe3), ("ctrl_r", 0xffe4), ("control", 0xffe3), ("alt", 0xffe9),
  ("alt_l", 0xffe9), ("alt_r", 0xffea), ("super", 0xffeb), ("super_l", 0xffeb),
  ("super_r", 0xffec), ("win", 0xffeb), ("meta", 0xffeb), ("space", 0x0020)]

def keysymForName (name : String) : Option UInt32 := keyNameToKeysym.lookup name

def characterToKeysym (ch : Char) : UInt32 :=
  if ' ' ≤ ch ∧ ch ≤ '~' then ch.val
  else if ch = '\t' then 0xff09
  else if ch = '\n' then 0xff0d
  else ch.val

/-- The symbols that need shift on a US keyboard. -/
def isShiftSymbol (ch : Char) : Bool := ch ∈ "!@#$%^&*()_+{}|:\"<>?~".toList

/-- The character a keysym stands for in the standard. Latin-1 keysyms and those of the
currency block denote themselves, Unicode keysyms are offset, and of the function keys
tab and return enter a character. -/
def spells (keysym : UInt32) : Option Char :=
  let n := keysym.toNat
  if (0x20 ≤ n ∧ n ≤ 0x7e) ∨ (0xa0 ≤ n ∧ n ≤ 0xff) ∨ (0x20a0 ≤ n ∧ n ≤ 0x20ac) then
    some (Char.ofNat n)
  else if n = 0xff09 then some '\t'
  else if n = 0xff0d then some '\n'
  else if 0x01000000 ≤ n ∧ (n - 0x01000000).isValidChar then
    some (Char.ofNat (n - 0x01000000))
  else none

/-- The characters whose keysym spells them. -/
def IsSpelled (ch : Char) : Prop :=
  ch = '\t' ∨ ch = '\n' ∨ (0x20 ≤ ch.toNat ∧ ch.toNat ≤ 0x7e) ∨
    (0xa0 ≤ ch.toNat ∧ ch.toNat ≤ 0xff) ∨ (0x20a0 ≤ ch.toNat ∧ ch.toNat ≤ 0x20ac)

theorem characterToKeysym_other {ch : Char} (tab : ch ≠ '\t') (newline : ch ≠ '\n') :
    characterToKeysym ch = ch.val := by
  simp [characterToKeysym, tab, newline]

/-- Exactly these characters are sent as a keysym that stands for them. -/
theorem spells_characterToKeysym (ch : Char) :
    spells (characterToKeysym ch) = some ch ↔ IsSpelled ch := by
  by_cases tab : ch = '\t'
  · subst tab
    simp [IsSpelled, characterToKeysym, spells]
  by_cases newline : ch = '\n'
  · subst newline
    simp [IsSpelled, characterToKeysym, spells]
  rw [characterToKeysym_other tab newline]
  have value : ch.val.toNat = ch.toNat := rfl
  have below : ch.toNat < 0x110000 := by
    have valid := ch.valid
    simp only [UInt32.isValidChar, Nat.isValidChar, value] at valid
    omega
  simp only [spells, IsSpelled, tab, newline, false_or, value]
  split
  next inside => simp [Char.ofNat_toNat, inside]
  next outside =>
    -- a code point in the range of the function keys is that of another character
    have wrong {other : Char} {n : Nat} (at_n : ch.toNat = n) (differs : other.toNat ≠ n) :
        ¬ some other = some ch := by
      intro same
      rw [← Option.some.inj same] at at_n
      exact differs at_n
    simp only [outside, iff_false]
    split
    next tabKey => exact wrong tabKey (by decide)
    split
    next returnKey => exact wrong returnKey (by decide)
    split
    next unicode => omega
    next => exact Option.some_ne_none ch ∘ Eq.symm

/-! ### Keyboard mappings -/

/-- What the server tells when a client connects. -/
structure Setup where
  root : UInt32
  minKeycode : UInt8
  maxKeycode : UInt8
  deriving DecidableEq

structure KeyboardMapping where
  keysymsPerKeycode : UInt8
  keysyms : List UInt32
  deriving DecidableEq

/-- The keysym of a key, given by its offset from the first one, at a level. -/
def KeyboardMapping.at? (mapping : KeyboardMapping) (offset level : Nat) : Option UInt32 :=
  if level < mapping.keysymsPerKeycode.toNat then
    mapping.keysyms[offset * mapping.keysymsPerKeycode.toNat + level]?
  else none

/-- The offset of the first key that carries the keysym at any level. -/
def KeyboardMapping.find? (mapping : KeyboardMapping) (count : UInt8) (keysym : UInt32) :
    Option Nat :=
  (List.range count.toNat).find? fun offset =>
    (List.range mapping.keysymsPerKeycode.toNat).any fun level =>
      mapping.at? offset level = some keysym

/-- The keycode that the client of a server with this mapping uses for a keysym. -/
def keycodeOf (setup : Setup) (mapping : KeyboardMapping) (keysym : UInt32) : Option UInt8 := do
  let offset ← mapping.find? (setup.maxKeycode - setup.minKeycode + 1) keysym
  if setup.minKeycode.toNat + offset < 256 then some (setup.minKeycode + .ofNat offset) else none

end Praefectus
