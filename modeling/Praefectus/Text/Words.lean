import Praefectus.Protocol.Request
import Praefectus.Text.Trim

/-!
# Words

Texts cut at white space and at the last place where a pattern occurs.
-/

/-! ### Cutting at the last occurrence -/

section Cutting

variable {α : Type} [DecidableEq α]

/-- `str::rsplit_once`: what is before and after the last occurrence of a pattern. -/
def rsplitOnce (pattern : List α) : List α → Option (List α × List α)
  | [] => if pattern = [] then some ([], []) else none
  | c :: rest =>
    match rsplitOnce pattern rest with
    | some (before, after) => some (c :: before, after)
    | none =>
      if pattern.isPrefixOf (c :: rest) then some ([], (c :: rest).drop pattern.length) else none

variable {first : α} {pattern text before after : List α}

theorem rsplitOnce_none (absent : first ∉ text) : rsplitOnce (first :: pattern) text = none := by
  induction text with
  | nil => rfl
  | cons c text ih =>
    obtain ⟨differs, absent⟩ := not_or.mp (mt List.mem_cons.mpr absent)
    rw [rsplitOnce, ih absent]
    simp [List.isPrefixOf, differs]

/-- An occurrence after which the pattern cannot start is the last one. -/
theorem rsplitOnce_last (last : first ∉ pattern ++ after) :
    rsplitOnce (first :: pattern) (before ++ (first :: pattern) ++ after) = some (before, after) := by
  induction before with
  | nil =>
    rw [List.nil_append, List.cons_append, rsplitOnce, rsplitOnce_none last]
    simp
  | cons c before ih =>
    rw [List.cons_append, List.cons_append, rsplitOnce, ih]

end Cutting

namespace Praefectus

/-! ### White space -/

/-- `str::split_whitespace`. -/
def splitWhitespace (text : List Char) : List (List Char) :=
  (text.splitOnP isWhitespace).filter (· ≠ [])

variable {text word blank : List Char}

theorem splitWhitespace_cut {c : Char} (space : isWhitespace c = true) (before after : List Char) :
    splitWhitespace (before ++ c :: after) = splitWhitespace before ++ splitWhitespace after := by
  rw [splitWhitespace, List.splitOnP_append_cons _ _ space, List.filter_append]
  rfl

theorem splitWhitespace_blank (spaces : ∀ c ∈ blank, isWhitespace c = true) :
    splitWhitespace blank = [] := by
  induction blank with
  | nil => rfl
  | cons c blank ih =>
    obtain ⟨space, spaces⟩ := List.forall_mem_cons.mp spaces
    rw [← List.nil_append (c :: blank), splitWhitespace_cut space, ih spaces]
    rfl

/-- White space at either end is no part of a word. -/
theorem splitWhitespace_before (spaces : ∀ c ∈ blank, isWhitespace c = true) (text : List Char) :
    splitWhitespace (blank ++ text) = splitWhitespace text := by
  induction blank with
  | nil => rfl
  | cons c blank ih =>
    obtain ⟨space, spaces⟩ := List.forall_mem_cons.mp spaces
    rw [List.cons_append, ← List.nil_append (c :: (blank ++ text)), splitWhitespace_cut space,
      ih spaces]
    rfl

theorem splitWhitespace_after (spaces : ∀ c ∈ blank, isWhitespace c = true) (text : List Char) :
    splitWhitespace (text ++ blank) = splitWhitespace text := by
  cases blank with
  | nil => rw [List.append_nil]
  | cons c blank =>
    obtain ⟨space, spaces⟩ := List.forall_mem_cons.mp spaces
    rw [splitWhitespace_cut space, splitWhitespace_blank spaces, List.append_nil]

theorem splitWhitespace_trim (text : List Char) :
    splitWhitespace (text.trimBy isWhitespace) = splitWhitespace text := by
  have front : ∀ c ∈ text.takeWhile isWhitespace, isWhitespace c = true :=
    fun c member => List.mem_takeWhile_imp member
  have back : ∀ c ∈ (text.dropWhile isWhitespace).rtakeWhile isWhitespace, isWhitespace c = true :=
    fun c member => List.mem_rtakeWhile_imp member
  calc splitWhitespace (text.trimBy isWhitespace)
      = splitWhitespace (text.trimBy isWhitespace ++
          (text.dropWhile isWhitespace).rtakeWhile isWhitespace) :=
        (splitWhitespace_after back _).symm
    _ = splitWhitespace (text.dropWhile isWhitespace) := by
        rw [List.trimBy, List.rdropWhile_append_rtakeWhile]
    _ = splitWhitespace (text.takeWhile isWhitespace ++ text.dropWhile isWhitespace) :=
        (splitWhitespace_before front _).symm
    _ = splitWhitespace text := by rw [List.takeWhile_append_dropWhile]

theorem splitWhitespace_word (filled : word ≠ []) (plain : ∀ c ∈ word, isWhitespace c = false) :
    splitWhitespace word = [word] := by
  rw [splitWhitespace, List.splitOnP_eq_singleton plain, List.filter_singleton]
  simp [filled]

/-- Words with a space after each. -/
theorem splitWhitespace_words {words : List (List Char)} (filled : ∀ word ∈ words, word ≠ [])
    (plain : ∀ word ∈ words, ∀ c ∈ word, isWhitespace c = false)
    (spaces : ∀ c ∈ blank, isWhitespace c = true) :
    splitWhitespace ([' '].intercalate words ++ blank) = words := by
  rw [splitWhitespace_after spaces]
  induction words with
  | nil => rfl
  | cons word words ih =>
    obtain ⟨nonempty, filled⟩ := List.forall_mem_cons.mp filled
    obtain ⟨clean, plain⟩ := List.forall_mem_cons.mp plain
    have alone := splitWhitespace_word nonempty clean
    cases words with
    | nil => rw [List.intercalate_singleton, alone]
    | cons next words =>
      rw [List.intercalate_cons_cons, List.append_assoc, List.singleton_append,
        splitWhitespace_cut (by decide), alone, ih filled plain, List.singleton_append]

end Praefectus
