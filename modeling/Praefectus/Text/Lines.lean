import Praefectus.Text.Utf8
import Mathlib.Data.List.Induction

/-!
# Files of newline-terminated lines

A file is cut into lines at each newline. The part up to the last newline is the
complete part; appending a line to it that is cut short leaves the complete part as
it was.
-/

def newline : UInt8 := 10

def carriageReturn : UInt8 := 13

/-- The lines of a file; the last one may lack its newline. -/
def lines : List UInt8 → List (List UInt8)
  | [] => []
  | b :: rest =>
    if b = newline then [] :: lines rest
    else match lines rest with
      | [] => [[b]]
      | line :: others => (b :: line) :: others

/-- The index of the last element that satisfies the test. -/
def rposition (p : UInt8 → Bool) (bytes : List UInt8) : Option Nat :=
  (bytes.reverse.findIdx? p).map (bytes.length - 1 - ·)

/-- The length of the complete part. -/
def completeLength (bytes : List UInt8) : Nat :=
  if bytes.getLast? = some newline then bytes.length
  else match rposition (· == newline) bytes with
    | some index => index + 1
    | none => 0

/-- One file from its lines. -/
def unlines (ls : List (List UInt8)) : List UInt8 := ls.flatMap (· ++ [newline])

@[simp] theorem unlines_nil : unlines [] = [] := rfl

@[simp] theorem unlines_cons (line : List UInt8) (ls : List (List UInt8)) :
    unlines (line :: ls) = line ++ newline :: unlines ls := by
  simp only [unlines, List.flatMap_cons, List.append_assoc, List.singleton_append]

@[simp] theorem unlines_append (ls ls' : List (List UInt8)) :
    unlines (ls ++ ls') = unlines ls ++ unlines ls' := List.flatMap_append

theorem lines_append {line : List UInt8} (single : newline ∉ line) (rest : List UInt8) :
    lines (line ++ newline :: rest) = line :: lines rest := by
  induction line with
  | nil => rfl
  | cons b line ih =>
    obtain ⟨differ, tail⟩ := List.ne_and_not_mem_of_not_mem_cons single
    rw [List.cons_append, lines, if_neg (Ne.symm differ), ih tail]

theorem lines_unlines {ls : List (List UInt8)} (single : ∀ line ∈ ls, newline ∉ line) :
    lines (unlines ls) = ls := by
  induction ls with
  | nil => rfl
  | cons line ls ih =>
    obtain ⟨first, others⟩ := List.forall_mem_cons.mp single
    rw [unlines_cons, lines_append first, ih others]

theorem unlines_getLast? (ls : List (List UInt8)) :
    ls = [] ∨ (unlines ls).getLast? = some newline := by
  induction ls using List.reverseRecOn with
  | nil => exact .inl rfl
  | append_singleton ls line _ =>
    right
    rw [unlines_append, unlines_cons, unlines_nil, ← List.append_assoc]
    exact List.getLast?_concat

theorem findIdx?_free {tail : List UInt8} (free : newline ∉ tail) :
    tail.reverse.findIdx? (· == newline) = none := by
  rw [List.findIdx?_eq_none_iff]
  intro b member
  rw [List.mem_reverse] at member
  exact beq_eq_false_iff_ne.mpr fun same => free (same ▸ member)

theorem rposition_free {tail : List UInt8} (free : newline ∉ tail) :
    rposition (· == newline) tail = none := by
  rw [rposition, findIdx?_free free]
  rfl

theorem rposition_after (done : List UInt8) {tail : List UInt8} (free : newline ∉ tail) :
    rposition (· == newline) (done ++ newline :: tail) = some done.length := by
  rw [rposition, List.reverse_append, List.reverse_cons, List.append_assoc,
    List.findIdx?_append, findIdx?_free free]
  simp only [List.singleton_append, List.findIdx?_cons, beq_self_eq_true, if_true, Option.map_some,
    Option.none_or, List.length_append, List.length_cons, List.length_reverse]
  congr 1
  omega

/-- The complete part of a file of whole lines followed by a piece of a line. -/
theorem completeLength_append (ls : List (List UInt8)) {tail : List UInt8}
    (free : newline ∉ tail) : completeLength (unlines ls ++ tail) = (unlines ls).length := by
  have last : tail ≠ [] → (unlines ls ++ tail).getLast? ≠ some newline := by
    intro some same
    rw [List.getLast?_append_of_ne_nil _ some] at same
    exact free (List.mem_of_getLast? same)
  rcases unlines_getLast? ls with rfl | closed
  · rw [unlines_nil, List.nil_append, completeLength]
    by_cases empty : tail = []
    · subst empty; rfl
    · rw [unlines_nil, List.nil_append] at last
      rw [if_neg (last empty), rposition_free free]
      rfl
  · by_cases empty : tail = []
    · subst empty
      rw [List.append_nil, completeLength, if_pos closed]
    · obtain ⟨done, same⟩ := List.getLast?_eq_some_iff.mp closed
      rw [completeLength, if_neg (last empty), same, List.append_assoc, List.singleton_append,
        rposition_after done free]
      simp only [List.length_append, List.length_singleton]

/-- A line that is cut short while it is written is a piece of a line or all of it. -/
theorem prefix_line_cases {piece line : List UInt8} (single : newline ∉ line)
    (cut : piece <+: line ++ [newline]) : newline ∉ piece ∨ piece = line ++ [newline] := by
  rcases List.prefix_concat_iff.mp cut with whole | part
  · exact .inr whole
  · exact .inl fun member => single (part.subset member)

theorem take_line {line : List UInt8} (rest : List UInt8) {n : Nat} (short : n ≤ line.length) :
    (line ++ newline :: rest).take n = line.take n :=
  List.take_append_of_le_length short

/-- A file of whole lines that is cut anywhere keeps the lines before the cut, and a
piece of the next one. -/
theorem take_unlines {ls : List (List UInt8)} (single : ∀ line ∈ ls, newline ∉ line) (n : Nat) :
    ∃ k tail, (unlines ls).take n = unlines (ls.take k) ++ tail ∧ newline ∉ tail ∧ k ≤ ls.length ∧
      ∀ s, s ≤ ls.length → (unlines (ls.take s)).length ≤ n → s ≤ k := by
  induction ls generalizing n with
  | nil => exact ⟨0, [], by simp, List.not_mem_nil, Nat.le_refl _, fun s within _ => within⟩
  | cons line ls ih =>
    obtain ⟨first, others⟩ := List.forall_mem_cons.mp single
    by_cases short : n ≤ line.length
    · refine ⟨0, line.take n, ?_, fun member => first (List.mem_of_mem_take member), Nat.zero_le _, ?_⟩
      · rw [unlines_cons, take_line _ short]
        rfl
      · intro s _ fits
        cases s with
        | zero => exact Nat.le_refl _
        | succ s =>
          simp only [List.take_succ_cons, unlines_cons, List.length_append, List.length_cons] at fits
          omega
    · obtain ⟨k, tail, same, free, within, covers⟩ := ih others (n - (line.length + 1))
      refine ⟨k + 1, tail, ?_, free, Nat.succ_le_succ within, ?_⟩
      · obtain ⟨m, rfl⟩ : ∃ m, n = line.length + 1 + m := ⟨n - (line.length + 1), by omega⟩
        have split : line ++ newline :: unlines ls = (line ++ [newline]) ++ unlines ls := by simp
        have whole : (line ++ [newline]).length = line.length + 1 := by simp
        rw [Nat.add_sub_cancel_left] at same
        rw [unlines_cons, split, ← whole, List.take_length_add_append, same, List.take_succ_cons,
          unlines_cons]
        simp
      · intro s bound fits
        cases s with
        | zero => exact Nat.zero_le _
        | succ s =>
          simp only [List.take_succ_cons, unlines_cons, List.length_append, List.length_cons] at fits
          exact Nat.succ_le_succ (covers s (Nat.le_of_succ_le_succ bound) (by omega))
