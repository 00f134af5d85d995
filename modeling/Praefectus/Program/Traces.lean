import Mathlib.Data.List.Induction

/-!
# Traces of a transition relation

A trace lists the labels of consecutive moves. What every move keeps holds at the end
of every trace.
-/

variable {σ τ ε : Type}

/-! ### What happened since -/

/-- Something in the trace satisfies `p`, and nothing after it satisfies `q`. -/
def Since (p q : ε → Prop) (trace : List ε) : Prop :=
  ∃ before e after, trace = before ++ e :: after ∧ p e ∧ ∀ e' ∈ after, ¬ q e'

theorem not_since_nil {p q : ε → Prop} : ¬ Since p q [] := by
  rintro ⟨before, e, after, none, _⟩
  simp at none

theorem since_concat {p q : ε → Prop} {trace : List ε} {e : ε} :
    Since p q (trace ++ [e]) ↔ p e ∨ Since p q trace ∧ ¬ q e := by
  constructor
  · rintro ⟨before, first, after, whole, holds, later⟩
    rcases List.eq_nil_or_concat after with rfl | ⟨after, last, rfl⟩
    · obtain ⟨_, same⟩ := List.append_inj' whole rfl
      obtain rfl := List.singleton_inj.mp same
      exact .inl holds
    · rw [List.concat_eq_append] at whole later
      rw [← List.cons_append, ← List.append_assoc] at whole
      obtain ⟨rfl, same⟩ := List.append_inj' whole rfl
      obtain rfl := List.singleton_inj.mp same
      obtain ⟨later, last⟩ := List.forall_mem_append.mp later
      exact .inr ⟨⟨before, first, after, rfl, holds, later⟩, last e List.mem_cons_self⟩
  · rintro (holds | ⟨⟨before, first, after, rfl, holds, later⟩, last⟩)
    · exact ⟨trace, e, [], rfl, holds, fun _ none => absurd none List.not_mem_nil⟩
    · refine ⟨before, first, after ++ [e], by simp, holds, ?_⟩
      exact List.forall_mem_append.mpr ⟨later, List.forall_mem_singleton.mpr last⟩

/-! ### Order in a trace -/

/-- Two of a longer trace, in order: they were in order before, or the second one is the last. -/
theorem pair_concat {first second last : ε} {trace : List ε} :
    [first, second].Sublist (trace ++ [last]) ↔
      [first, second].Sublist trace ∨ first ∈ trace ∧ second = last := by
  constructor
  · intro ordered
    obtain ⟨before, after, whole, earlier, later⟩ := List.sublist_append_iff.mp ordered
    rcases List.sublist_cons_iff.mp later with none | ⟨rest, rfl, none⟩
    · rw [List.sublist_nil.mp none, List.append_nil] at whole
      exact .inl (whole ▸ earlier)
    · rw [List.sublist_nil.mp none] at whole
      have whole : [first] ++ [second] = before ++ [last] := whole
      obtain ⟨rfl, same⟩ := List.append_inj' whole rfl
      exact .inr ⟨List.singleton_sublist.mp earlier, List.singleton_inj.mp same⟩
  · rintro (ordered | ⟨member, rfl⟩)
    · exact ordered.trans (List.sublist_append_left _ _)
    · exact (List.singleton_sublist.mpr member).append (List.Sublist.refl [second])

/-- Three of a trace, in order: the first two come before some occurrence of the last. -/
theorem triple_split {first second last : ε} {trace : List ε}
    (ordered : [first, second, last].Sublist trace) :
    ∃ before after, trace = before ++ last :: after ∧ [first, second].Sublist before := by
  have parts : ([first, second] ++ [last]).Sublist trace := ordered
  obtain ⟨front, back, rfl, earlier, later⟩ := List.append_sublist_iff.mp parts
  obtain ⟨between, after, rfl⟩ := List.append_of_mem (List.singleton_sublist.mp later)
  refine ⟨front ++ between, after, by rw [List.append_assoc], ?_⟩
  exact earlier.trans (List.sublist_append_left _ _)

/-- Something in the trace comes before two others in order, or is the first of them, or comes
after it. -/
theorem sublist_compare {one first second : ε} {trace : List ε} (member : one ∈ trace)
    (ordered : [first, second].Sublist trace) :
    [one, first, second].Sublist trace ∨ one = first ∨ [first, one].Sublist trace := by
  induction trace with
  | nil => exact absurd member List.not_mem_nil
  | cons e trace ih =>
    rcases List.sublist_cons_iff.mp ordered with later | ⟨rest, same, later⟩
    · rcases List.mem_cons.mp member with rfl | member
      · exact .inl (later.cons_cons _)
      · rcases ih member later with after | same | before
        · exact .inl (after.cons _)
        · exact .inr (.inl same)
        · exact .inr (.inr (before.cons _))
    · obtain ⟨rfl, rfl⟩ := List.cons.inj same
      rcases List.mem_cons.mp member with same | member
      · exact .inr (.inl same)
      · exact .inr (.inr ((List.singleton_sublist.mpr member).cons_cons _))

/-! ### Traces -/

/-- `Reaches move s trace t`: the moves of `trace`, in order, lead from `s` to `t`. -/
inductive Reaches (move : σ → ε → σ → Prop) (s : σ) : List ε → σ → Prop where
  | nil : Reaches move s [] s
  | snoc {trace : List ε} {e : ε} {t u : σ} :
      Reaches move s trace t → move t e u → Reaches move s (trace ++ [e]) u

namespace Reaches

variable {move : σ → ε → σ → Prop} {s t u : σ} {first second : List ε}

theorem single {e : ε} (moved : move s e t) : Reaches move s [e] t := .snoc .nil moved

/-- Moves that leave a state where it is. -/
theorem still {trace : List ε} (each : ∀ e ∈ trace, move s e s) : Reaches move s trace s := by
  induction trace using List.reverseRecOn with
  | nil => exact .nil
  | append_singleton trace e ih =>
    obtain ⟨before, last⟩ := List.forall_mem_append.mp each
    exact .snoc (ih before) (last e List.mem_cons_self)

theorem trans (before : Reaches move s first t) (after : Reaches move t second u) :
    Reaches move s (first ++ second) u := by
  induction after with
  | nil => simpa only [List.append_nil] using before
  | snoc _ moved ih =>
    rw [← List.append_assoc]
    exact .snoc ih moved

theorem cons {e : ε} (moved : move s e t) (after : Reaches move t second u) :
    Reaches move s (e :: second) u := (single moved).trans after

/-- A trace can be cut at any point. -/
theorem split (whole : Reaches move s (first ++ second) u) :
    ∃ t, Reaches move s first t ∧ Reaches move t second u := by
  induction second using List.reverseRecOn generalizing u with
  | nil => exact ⟨u, by simpa only [List.append_nil] using whole, .nil⟩
  | append_singleton second e ih =>
    rw [← List.append_assoc] at whole
    generalize same : first ++ second ++ [e] = trace at whole
    cases whole with
    | nil => simp at same
    | snoc before moved =>
      obtain ⟨rfl, last⟩ := List.append_inj' same rfl
      obtain rfl : e = _ := by simpa only [List.cons.injEq, and_true] using last
      obtain ⟨t, before, after⟩ := ih before
      exact ⟨t, before, .snoc after moved⟩

/-- The last move of a trace. -/
theorem last {e : ε} (whole : Reaches move s (first ++ [e]) u) :
    ∃ t, Reaches move s first t ∧ move t e u := by
  obtain ⟨t, before, after⟩ := whole.split
  generalize same : [e] = trace at after
  cases after with
  | nil => contradiction
  | @snoc trace' e' t' _ none moved =>
    have same : [] ++ [e] = trace' ++ [e'] := same
    obtain ⟨rfl, last⟩ := List.append_inj' same rfl
    obtain rfl : e = e' := by simpa only [List.cons.injEq, and_true] using last
    generalize empty : ([] : List ε) = trace at none
    cases none with
    | nil => exact ⟨_, before, moved⟩
    | snoc => simp at empty

/-- The states around any of the moves of a trace. -/
theorem at_move {e : ε} (whole : Reaches move s (first ++ e :: second) u) :
    ∃ t t', Reaches move s first t ∧ move t e t' := by
  rw [List.append_cons] at whole
  obtain ⟨t', before, _⟩ := whole.split
  obtain ⟨t, before, moved⟩ := before.last
  exact ⟨t, t', before, moved⟩

/-- A property of the trace so far and the state that holds at first and is kept by every
move holds at the end. -/
theorem invariant (P : List ε → σ → Prop) (initial : P [] s)
    (kept : ∀ trace t e u, Reaches move s trace t → P trace t → move t e u → P (trace ++ [e]) u)
    {trace : List ε} (whole : Reaches move s trace t) : P trace t := by
  induction whole with
  | nil => exact initial
  | snoc before moved ih => exact kept _ _ _ _ before ih moved

/-- Where each move is matched by one with the same label, so is each trace. -/
theorem simulate {move' : τ → ε → τ → Prop} (R : σ → τ → Prop) {s' : τ} (initial : R s s')
    (matched : ∀ t t' e u, R t t' → move t e u → ∃ u', move' t' e u' ∧ R u u')
    {trace : List ε} (whole : Reaches move s trace t) :
    ∃ t', Reaches move' s' trace t' ∧ R t t' := by
  induction whole with
  | nil => exact ⟨s', .nil, initial⟩
  | snoc before moved ih =>
    obtain ⟨t', before', related⟩ := ih
    obtain ⟨u', moved', related'⟩ := matched _ _ _ _ related moved
    exact ⟨u', .snoc before' moved', related'⟩

end Reaches
