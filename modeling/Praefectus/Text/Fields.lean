import Praefectus.Text.Words

/-!
# Header lines

Texts cut into lines at CRLF, lines cut at the first colon, and the numbers among their values.
-/

namespace Praefectus

/-! ### Lines that end in CRLF -/

def crlf : List Char := ['\r', '\n']

/-- `str::split` at CRLF. -/
def splitCrlf : List Char → List (List Char)
  | '\r' :: '\n' :: rest => [] :: splitCrlf rest
  | c :: rest =>
    match splitCrlf rest with
    | line :: lines => (c :: line) :: lines
    | [] => [[c]]
  | [] => [[]]

theorem splitCrlf_cut (rest : List Char) : splitCrlf ('\r' :: '\n' :: rest) = [] :: splitCrlf rest := by
  rw [splitCrlf]

variable {text line : List Char} {c : Char}

theorem splitCrlf_ne_nil (text : List Char) : splitCrlf text ≠ [] := by
  cases text with
  | nil => simp [splitCrlf]
  | cons c rest =>
    unfold splitCrlf
    split
    · exact List.cons_ne_nil _ _
    · split <;> exact List.cons_ne_nil _ _
    · contradiction

/-- One more character belongs to the first line, unless it starts a CRLF. -/
theorem splitCrlf_cons {first : List Char} {lines : List (List Char)}
    (inside : ∀ rest, c :: text ≠ '\r' :: '\n' :: rest) (cut : splitCrlf text = first :: lines) :
    splitCrlf (c :: text) = (c :: first) :: lines := by
  unfold splitCrlf
  split
  next rest same => exact absurd same (inside rest)
  next c' rest _ same =>
    obtain ⟨rfl, rfl⟩ := List.cons.inj same
    rw [cut]
  next same => contradiction

/-- By how a text is cut: at a CRLF, after another character, or not at all. -/
theorem splitCrlf_induction {motive : List Char → Prop} (nil : motive [])
    (cut : ∀ rest, motive rest → motive ('\r' :: '\n' :: rest))
    (inside : ∀ c text first lines, (∀ rest, c :: text ≠ '\r' :: '\n' :: rest) →
      splitCrlf text = first :: lines → motive text → motive (c :: text)) :
    ∀ text, motive text
  | [] => nil
  | c :: text => by
    by_cases starts : ∃ rest, c :: text = '\r' :: '\n' :: rest
    · obtain ⟨rest, same⟩ := starts
      obtain ⟨rfl, rfl⟩ := List.cons.inj same
      exact cut rest (splitCrlf_induction nil cut inside rest)
    · obtain ⟨first, lines, found⟩ := List.exists_cons_of_ne_nil (splitCrlf_ne_nil text)
      exact inside c text first lines (fun rest same => starts ⟨rest, same⟩) found
        (splitCrlf_induction nil cut inside text)

/-- The lines and what they were cut at are the text. -/
theorem intercalate_splitCrlf (text : List Char) : crlf.intercalate (splitCrlf text) = text := by
  induction text using splitCrlf_induction with
  | nil => rfl
  | cut rest ih =>
    obtain ⟨first, lines, found⟩ := List.exists_cons_of_ne_nil (splitCrlf_ne_nil rest)
    rw [splitCrlf_cut, found, List.intercalate_cons_cons, ← found, ih]
    rfl
  | inside c text first lines inside found ih =>
    rw [found] at ih
    rw [splitCrlf_cons inside found, ← ih]
    cases lines with
    | nil => simp [List.intercalate_singleton]
    | cons line lines => simp [List.intercalate_cons_cons]

theorem splitCrlf_head {first : List Char} {lines : List (List Char)}
    (cut : splitCrlf text = first :: lines) : first <+: text := by
  have whole := intercalate_splitCrlf text
  rw [cut] at whole
  cases lines with
  | nil =>
    rw [List.intercalate_singleton] at whole
    exact whole ▸ List.prefix_refl _
  | cons line lines =>
    rw [List.intercalate_cons_cons, List.append_assoc] at whole
    exact whole ▸ List.prefix_append _ _

/-- No line holds a CRLF. -/
theorem splitCrlf_free (text : List Char) : ∀ line ∈ splitCrlf text, ¬ crlf <:+: line := by
  have empty : ¬ crlf <:+: ([] : List Char) := by simp [crlf]
  induction text using splitCrlf_induction with
  | nil => exact List.forall_mem_singleton.mpr empty
  | cut rest ih =>
    rw [splitCrlf_cut]
    exact List.forall_mem_cons.mpr ⟨empty, ih⟩
  | inside c text first lines inside found ih =>
    rw [found] at ih
    obtain ⟨free, others⟩ := List.forall_mem_cons.mp ih
    rw [splitCrlf_cons inside found]
    refine List.forall_mem_cons.mpr ⟨fun infixed => ?_, others⟩
    rcases List.infix_cons_iff.mp infixed with starts | later
    · -- the text would have been cut here
      obtain ⟨rest, same⟩ := starts
      obtain ⟨tail, whole⟩ := splitCrlf_head found
      have cut : c :: text = '\r' :: '\n' :: (rest ++ tail) := by
        rw [← whole, ← List.cons_append, ← same]
        rfl
      exact inside _ cut
    · exact free later

/-! ### Lines cut at a character -/

/-- `str::split_once` at a character. -/
def splitOnce (c : Char) : List Char → Option (List Char × List Char)
  | [] => none
  | d :: rest =>
    if d = c then some ([], rest)
    else (splitOnce c rest).map fun (before, after) => (d :: before, after)

theorem splitOnce_some {before after : List Char} (cut : splitOnce c text = some (before, after)) :
    text = before ++ c :: after ∧ c ∉ before := by
  induction text generalizing before with
  | nil => cases cut
  | cons d rest ih =>
    unfold splitOnce at cut
    split at cut
    next here =>
      cases cut
      exact ⟨congrArg (· :: _) here, List.not_mem_nil⟩
    next other =>
      obtain ⟨⟨before, after⟩, found, same⟩ := Option.map_eq_some_iff.mp cut
      cases same
      obtain ⟨rfl, absent⟩ := ih found
      refine ⟨rfl, fun member => ?_⟩
      rcases List.mem_cons.mp member with rfl | member
      · exact other rfl
      · exact absent member

/-! ### Numbers -/

def dropPlus : List Char → List Char
  | '+' :: digits => digits
  | text => text

/-- `str::parse::<usize>`. -/
def parseUsize (text : List Char) : Option Nat :=
  if dropPlus text ≠ [] ∧ (dropPlus text).all Char.isDigit ∧
      Nat.ofDigitChars 10 (dropPlus text) 0 < 2 ^ 64 then
    some (Nat.ofDigitChars 10 (dropPlus text) 0)
  else none

/-! ### Texts of bytes -/

theorem utf8_of_decodeUtf8 {bytes : List UInt8} (decoded : decodeUtf8 bytes = some text) :
    bytes = utf8 text := by
  obtain ⟨chars, found, rfl⟩ := Option.map_eq_some_iff.mp decoded
  have present : bytes.toByteArray.utf8Decode?.isSome = true := by
    rw [found]
    rfl
  have encoded : chars.toList.utf8Encode = bytes.toByteArray := by
    have whole := ByteArray.utf8Encode_get_utf8Decode? (h := present)
    simpa only [found, Option.get_some] using whole
  rw [← utf8_toByteArray] at encoded
  have same := congrArg (fun array => array.data.toList) encoded
  simpa using same.symm

end Praefectus
