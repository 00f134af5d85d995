import Praefectus.Json.Value
import Mathlib.Data.List.Basic

/-!
# Joined texts

Texts joined by a separator that none of them holds can be told apart, and so can a
text and its last part.
-/

variable {α : Type}

/-- The separator is where the first part ends. -/
theorem cut_first {sep : α} {a b c d : List α} (left : sep ∉ a) (right : sep ∉ c)
    (same : a ++ sep :: b = c ++ sep :: d) : a = c ∧ b = d := by
  induction a generalizing c with
  | nil =>
    cases c with
    | nil => exact ⟨rfl, (List.cons.inj same).2⟩
    | cons x c =>
      obtain ⟨rfl, _⟩ := List.cons.inj same
      exact absurd List.mem_cons_self right
  | cons x a ih =>
    cases c with
    | nil =>
      obtain ⟨rfl, _⟩ := List.cons.inj same
      exact absurd List.mem_cons_self left
    | cons y c =>
      obtain ⟨rfl, rest⟩ := List.cons.inj same
      obtain ⟨rfl, tails⟩ := ih (fun member => left (List.mem_cons_of_mem _ member))
        (fun member => right (List.mem_cons_of_mem _ member)) rest
      exact ⟨rfl, tails⟩

/-- The separator is where the last part starts. -/
theorem cut_last {sep : α} {a b c d : List α} (left : sep ∉ b) (right : sep ∉ d)
    (same : a ++ sep :: b = c ++ sep :: d) : a = c ∧ b = d := by
  have reversed := congrArg List.reverse same
  simp only [List.reverse_append, List.reverse_cons, List.append_assoc, List.singleton_append]
    at reversed
  obtain ⟨last, first⟩ := cut_first (fun member => left (List.mem_reverse.mp member))
    (fun member => right (List.mem_reverse.mp member)) reversed
  exact ⟨List.reverse_injective first, List.reverse_injective last⟩

theorem intercalate_injective [DecidableEq α] {sep : α} {parts others : List (List α)}
    (some : parts ≠ []) (some' : others ≠ []) (apart : ∀ part ∈ parts, sep ∉ part)
    (apart' : ∀ part ∈ others, sep ∉ part)
    (same : [sep].intercalate parts = [sep].intercalate others) : parts = others := by
  rw [← List.splitOn_intercalate sep apart some, same, List.splitOn_intercalate sep apart' some']

theorem mem_intercalate {sep c : α} {parts : List (List α)} (member : c ∈ [sep].intercalate parts) :
    c = sep ∨ ∃ part ∈ parts, c ∈ part := by
  induction parts with
  | nil => cases member
  | cons part parts ih =>
    cases parts with
    | nil =>
      rw [List.intercalate_singleton] at member
      exact .inr ⟨part, List.mem_cons_self, member⟩
    | cons next parts =>
      rw [List.intercalate_cons_cons, List.append_assoc, List.mem_append] at member
      rcases member with inside | later
      · exact .inr ⟨part, List.mem_cons_self, inside⟩
      · rcases List.mem_cons.mp later with rfl | later
        · exact .inl rfl
        · rcases ih later with same | ⟨other, listed, inside⟩
          · exact .inl same
          · exact .inr ⟨other, List.mem_cons_of_mem _ listed, inside⟩

/-! ### Printed numbers -/

theorem printNat_injective {m n : Nat} (same : Nat.toDigits 10 m = Nat.toDigits 10 n) : m = n := by
  have values := congrArg (Nat.ofDigitChars 10 · 0) same
  simpa using values

theorem mem_toDigits {n : Nat} {c : Char} (member : c ∈ Nat.toDigits 10 n) : c.isDigit = true :=
  Nat.isDigit_of_mem_toDigits (by omega) (by omega) member

theorem minus_notMem_toDigits (n : Nat) : '-' ∉ Nat.toDigits 10 n := fun member =>
  absurd (mem_toDigits member) (by decide)

theorem printInt_injective {m n : Int} (same : printInt m = printInt n) : m = n := by
  cases m with
  | ofNat m =>
    cases n with
    | ofNat n => rw [printNat_injective same]
    | negSucc n =>
      -- a sign is no digit
      have signed : Nat.toDigits 10 m = '-' :: Nat.toDigits 10 (n + 1) := same
      exact absurd (signed ▸ List.mem_cons_self) (minus_notMem_toDigits m)
  | negSucc m =>
    cases n with
    | ofNat n =>
      have signed : Nat.toDigits 10 n = '-' :: Nat.toDigits 10 (m + 1) := same.symm
      exact absurd (signed ▸ List.mem_cons_self) (minus_notMem_toDigits n)
    | negSucc n =>
      have values := printNat_injective (List.cons.inj same).2
      rw [Nat.succ_inj.mp values]

theorem mem_printInt {n : Int} {c : Char} (member : c ∈ printInt n) :
    c.isDigit = true ∨ c = '-' := by
  cases n with
  | ofNat n => exact .inl (mem_toDigits member)
  | negSucc n =>
    rcases List.mem_cons.mp member with rfl | member
    · exact .inr rfl
    · exact .inl (mem_toDigits member)
