import Mathlib.Data.Finset.Card
import Mathlib.Data.List.Basic
import Mathlib.Logic.Relation

/-!
# Ways up

A partial function says what is above a node. The way up from a node ends, or it comes to
a circle; where only finitely many nodes have something above them, there is no third way.
-/

namespace Ascent

variable {α : Type} (up : α → Option α)

/-- What is so many steps above. -/
def climb : Nat → Option α → Option α
  | 0, x => x
  | n + 1, x => climb n (x.bind up)

/-- The way up comes to an end. -/
def Ends (x : Option α) : Prop := ∃ n, climb up n x = none

/-- The way up comes to a node that is above itself. -/
def Circles (x : Option α) : Prop :=
  ∃ c m n, climb up m x = some c ∧ climb up (n + 1) (some c) = some c

variable {up}

@[simp] theorem climb_none (n : Nat) : climb up n none = none := by
  induction n with
  | zero => rfl
  | succ n ih => exact ih

theorem climb_add (m n : Nat) (x : Option α) : climb up (m + n) x = climb up n (climb up m x) := by
  induction m generalizing x with
  | zero => rw [Nat.zero_add]; rfl
  | succ m ih => rw [Nat.succ_add]; exact ih _

theorem climb_succ (n : Nat) (x : Option α) : climb up (n + 1) x = (climb up n x).bind up :=
  climb_add n 1 x

/-- Above the end there is nothing. -/
theorem climb_past {x : Option α} {m n : Nat} (ended : climb up m x = none) (later : m ≤ n) :
    climb up n x = none := by
  obtain ⟨more, rfl⟩ := Nat.exists_eq_add_of_le later
  rw [climb_add, ended, climb_none]

/-- What is strictly above a node, as a relation. -/
theorem climb_transGen {a b : α} :
    Relation.TransGen (fun a b => up a = some b) a b ↔ ∃ n, climb up (n + 1) (some a) = some b := by
  constructor
  · intro above
    induction above with
    | single step => exact ⟨0, step⟩
    | tail _ step ih =>
      obtain ⟨n, reached⟩ := ih
      refine ⟨n + 1, ?_⟩
      rw [climb_succ, reached]
      exact step
  · rintro ⟨n, reached⟩
    induction n generalizing b with
    | zero => exact .single reached
    | succ n ih =>
      rw [climb_succ] at reached
      obtain ⟨c, earlier, step⟩ := Option.bind_eq_some_iff.mp reached
      exact .tail (ih earlier) step

/-- Once around a circle, any number of times around it. -/
theorem climb_around {c : α} {n : Nat} (around : climb up n (some c) = some c) (times : Nat) :
    climb up (times * n) (some c) = some c := by
  induction times with
  | zero => rw [Nat.zero_mul]; rfl
  | succ times ih => rw [Nat.succ_mul, climb_add, ih, around]

theorem not_ends_of_circles {x : Option α} (circles : Circles up x) : ¬ Ends up x := by
  rintro ⟨k, ended⟩
  obtain ⟨c, m, n, reached, around⟩ := circles
  -- after k rounds the way is past its end and still at c
  have still : climb up (m + k * (n + 1)) x = some c := by
    rw [climb_add, reached, climb_around around]
  rw [climb_past ended (by rw [Nat.mul_succ]; omega)] at still
  contradiction

/-- Two places on the way that are the same make a circle. -/
theorem circles_of_repeat {x : Option α} {i j : Nat} {c : α} (before : i < j)
    (first : climb up i x = some c) (second : climb up j x = some c) : Circles up x := by
  obtain ⟨n, rfl⟩ := Nat.exists_eq_add_of_lt before
  refine ⟨c, i, n, first, ?_⟩
  rwa [Nat.add_assoc, climb_add, first] at second

/-- Where finitely many nodes have something above them, a long way comes to a node twice. -/
theorem ends_or_circles [DecidableEq α] {domain : Finset α}
    (within : ∀ a b, up a = some b → a ∈ domain) (x : Option α) :
    climb up (domain.card + 1) x = none ∨ Circles up x := by
  by_contra neither
  rw [not_or] at neither
  obtain ⟨long, straight⟩ := neither
  have lives (i : Nat) (early : i ≤ domain.card) : ∃ a ∈ domain, climb up i x = some a := by
    cases here : climb up i x with
    | none => exact absurd (climb_past here (by omega)) long
    | some a =>
      refine ⟨a, ?_, rfl⟩
      -- something is above it, since the way goes on
      cases next : up a with
      | none =>
        refine absurd (@climb_past _ _ _ (i + 1) _ ?_ (by omega)) long
        rw [climb_succ, here]
        exact next
      | some b => exact within a b next
  -- more places than nodes, so two of them are the same
  obtain ⟨i, low, j, low', apart, same⟩ : ∃ i ∈ Finset.range (domain.card + 1),
      ∃ j ∈ Finset.range (domain.card + 1), i ≠ j ∧ climb up i x = climb up j x := by
    refine @Finset.exists_ne_map_eq_of_card_lt_of_maps_to _ _ _ (domain.map .some) (by simp) _ ?_
    intro i low
    obtain ⟨a, member, here⟩ := lives i (Nat.lt_succ_iff.mp (Finset.mem_range.mp low))
    dsimp only
    rw [here, Finset.mem_coe]
    exact Finset.mem_map_of_mem _ member
  obtain ⟨a, _, here⟩ := lives i (Nat.lt_succ_iff.mp (Finset.mem_range.mp low))
  rcases Nat.lt_or_gt_of_ne apart with before | before
  · exact straight (circles_of_repeat before here (same ▸ here))
  · exact straight (circles_of_repeat before (same ▸ here) here)

/-- The way up ends exactly where it comes to no circle. -/
theorem ends_iff [DecidableEq α] {domain : Finset α} (within : ∀ a b, up a = some b → a ∈ domain)
    {x : Option α} : Ends up x ↔ ¬ Circles up x := by
  constructor
  · exact fun ends circles => not_ends_of_circles circles ends
  · intro straight
    exact ⟨_, (ends_or_circles within x).resolve_right straight⟩

end Ascent
