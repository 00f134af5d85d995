import Praefectus.Text.Utf8
import Mathlib.Data.List.DropRight

/-!
# Trimming and cutting text

Dropping what a predicate holds of from both ends of a list, and keeping as many
characters as fit in a number of bytes.
-/

namespace List

variable {α : Type} (p : α → Bool)

/-- The list without the items at either end that satisfy the predicate. -/
def trimBy (items : List α) : List α := (items.dropWhile p).rdropWhile p

theorem trimBy_infix (items : List α) : items.trimBy p <:+: items := by
  have left : items.dropWhile p <:+: items := (items.dropWhile_suffix p).isInfix
  have right : (items.dropWhile p).rdropWhile p <:+: items.dropWhile p :=
    (List.rdropWhile_prefix p _).isInfix
  exact right.trans left

theorem trimBy_head (items : List α) (nonempty : items.trimBy p ≠ []) :
    p ((items.trimBy p).head nonempty) = false := by
  have pre : items.trimBy p <+: items.dropWhile p :=
    List.rdropWhile_prefix p _
  rw [pre.head nonempty]
  simpa using head_dropWhile_not p (pre.ne_nil nonempty)

/-- Trimming leaves something that does not satisfy the predicate, or nothing. -/
theorem trimBy_all_iff (items : List α) : (items.trimBy p).all p = true ↔ items.trimBy p = [] := by
  constructor
  · intro all
    by_contra nonempty
    have first := trimBy_head p items nonempty
    rw [all_eq_true] at all
    rw [all _ (head_mem nonempty)] at first
    cases first
  · intro empty
    simp [empty]

end List

theorem String.utf8ByteSize_eq (s : String) : s.utf8ByteSize = (utf8 s.toList).length := by
  rw [← String.size_toByteArray, ← List.size_toByteArray, utf8_toByteArray]
  simp

@[simp] theorem utf8_cons (c : Char) (text : List Char) :
    utf8 (c :: text) = String.utf8EncodeChar c ++ utf8 text := rfl

theorem utf8_sublist {a b : List Char} (sub : a.Sublist b) :
    (utf8 a).length ≤ (utf8 b).length := by
  induction sub with
  | slnil => exact Nat.le_refl _
  | cons c _ ih => simp; omega
  | cons_cons c _ ih => simp; omega

theorem utf8_length_pos {text : List Char} (nonempty : text ≠ []) : 1 ≤ (utf8 text).length := by
  cases text with
  | nil => exact absurd rfl nonempty
  | cons c text =>
    have size := Char.utf8Size_pos c
    simp only [utf8_cons, List.length_append, String.length_utf8EncodeChar]
    omega

theorem length_le_utf8 (text : List Char) : text.length ≤ (utf8 text).length := by
  induction text with
  | nil => simp
  | cons c text ih =>
    have size := Char.utf8Size_pos c
    simp only [utf8_cons, List.length_append, String.length_utf8EncodeChar, List.length_cons]
    omega

/-- As many characters as bytes: each takes one. -/
theorem utf8_length_eq_iff (text : List Char) :
    (utf8 text).length ≤ text.length ↔ ∀ c ∈ text, c.utf8Size = 1 := by
  induction text with
  | nil => simp
  | cons c text ih =>
    have size := Char.utf8Size_pos c
    have rest := length_le_utf8 text
    simp only [utf8_cons, List.length_append, String.length_utf8EncodeChar, List.length_cons,
      List.forall_mem_cons, ← ih]
    omega

theorem utf8_length_single {text : List Char} (each : ∀ c ∈ text, c.utf8Size = 1) :
    (utf8 text).length = text.length :=
  Nat.le_antisymm ((utf8_length_eq_iff text).mpr each) (length_le_utf8 text)

/-- The longest beginning of whole characters that fits in a number of bytes. -/
def takeBytes : Nat → List Char → List Char
  | _, [] => []
  | maximum, c :: text =>
    if c.utf8Size ≤ maximum then c :: takeBytes (maximum - c.utf8Size) text else []

theorem prefix_takeBytes (maximum : Nat) (text : List Char) : takeBytes maximum text <+: text := by
  induction text generalizing maximum with
  | nil => simp [takeBytes]
  | cons c text ih =>
    unfold takeBytes
    split
    · exact List.cons_prefix_cons.mpr ⟨rfl, ih _⟩
    · exact List.nil_prefix

theorem takeBytes_fits (maximum : Nat) (text : List Char) :
    (utf8 (takeBytes maximum text)).length ≤ maximum := by
  induction text generalizing maximum with
  | nil => simp [takeBytes]
  | cons c text ih =>
    unfold takeBytes
    split
    next fits =>
      have rest := ih (maximum - c.utf8Size)
      simp only [utf8_cons, List.length_append, String.length_utf8EncodeChar]
      omega
    next => simp
