import Praefectus.Program.Handled
import Praefectus.Program.Upholds

/-!
# Programs that carry out a plan

Some questions change the environment. A program carries out a plan if these are the steps of
the plan in its order, each taken once all before it have worked. What the error of the program
says of its steps is a relation of its own.
-/

namespace Prog

variable {I : Interface} {α β ε : Type}

/-- The questions that are steps, and the events that are steps which worked. -/
structure Steppers (I : Interface) where
  isStep : I.Op → Bool
  worked : Event I → Bool

namespace Steppers

variable (w : Steppers I)

/-- The steps of a history. -/
def taken (past : History I) : History I := past.filter fun e => w.isStep e.op

/-- The steps so far are these, and have worked. -/
structure Progress (done : List I.Op) (past : History I) : Prop where
  same : (w.taken past).map Event.op = done
  worked : ∀ e ∈ w.taken past, w.worked e = true

/-- The step just taken, which may have failed. -/
def Stepped (done : List I.Op) (e : Event I) (past : History I) : Prop :=
  ∃ earlier, past = earlier ++ [e] ∧ w.Progress done earlier ∧ w.isStep e.op = true

/-- A step goes on with a plan, after the steps before it. -/
def Next (IsPlan : List I.Op → Prop) (past : History I) (op : I.Op) : Prop :=
  w.isStep op = true → ∃ done rest, w.Progress done past ∧ IsPlan (done ++ op :: rest)

/-- Nothing was changed. -/
abbrev Idle (op : I.Op) : Prop := w.isStep op = false

variable {w} {done : List I.Op} {past : History I} {e : Event I} {IsPlan : List I.Op → Prop}

/-! ### Progress -/

/-- A plan that repeats one step, cut at one of its turns. -/
theorem replicate_cut {index count : Nat} (below : index < count) (op : I.Op) :
    List.replicate count op =
      List.replicate index op ++ op :: List.replicate (count - index - 1) op := by
  rw [← List.replicate_succ, List.replicate_append_replicate]
  congr 1
  omega

theorem taken_append (before after : History I) :
    w.taken (before ++ after) = w.taken before ++ w.taken after := List.filter_append ..

theorem taken_step (step : w.isStep e.op = true) : w.taken [e] = [e] := by
  simp [taken, step]

theorem taken_idle (idle : w.Idle e.op) : w.taken [e] = [] := by
  simp [taken, idle]

theorem progress_nil : w.Progress [] [] := ⟨rfl, by simp [taken]⟩

theorem progress_untouched (progress : w.Progress [] past) : w.taken past = [] :=
  List.map_eq_nil_iff.mp progress.same

/-- What is no step leaves the steps as they are. -/
theorem lasting_taken {steps : History I} : Lasting w.Idle fun past => w.taken past = steps := by
  intro past e idle same
  rw [taken_append, taken_idle idle, List.append_nil, same]

theorem lasting_progress : Lasting w.Idle (w.Progress done) := by
  intro past e idle progress
  have same := lasting_taken past e idle rfl
  exact ⟨same ▸ progress.same, same ▸ progress.worked⟩

/-- A step that worked is progress. -/
theorem progress_stepped (stepped : w.Stepped done e past) (worked : w.worked e = true) :
    w.Progress (done ++ [e.op]) past := by
  obtain ⟨earlier, rfl, progress, step⟩ := stepped
  have taken : w.taken (earlier ++ [e]) = w.taken earlier ++ [e] := by
    rw [taken_append, taken_step step]
  constructor
  · rw [taken, List.map_append, progress.same, List.map_singleton]
  · intro e' member
    rw [taken, List.mem_append, List.mem_singleton] at member
    rcases member with old | rfl
    · exact progress.worked e' old
    · exact worked

/-- The first step. -/
theorem stepped_first (stepped : w.Stepped [] e past) : w.taken past = [e] := by
  obtain ⟨earlier, rfl, progress, step⟩ := stepped
  rw [taken_append, progress_untouched progress, taken_step step, List.nil_append]

/-- The steps of a plan, up to the one that comes next. -/
theorem next_prefix (next : w.Next IsPlan past e.op) (step : w.isStep e.op = true) :
    ∃ plan, IsPlan plan ∧ (w.taken (past ++ [e])).map Event.op <+: plan ∧
      ∀ e' ∈ w.taken past, w.worked e' = true := by
  obtain ⟨done, rest, progress, isPlan⟩ := next step
  refine ⟨done ++ e.op :: rest, isPlan, ⟨rest, ?_⟩, progress.worked⟩
  rw [taken_append, taken_step step, List.map_append, progress.same]
  simp

/-! ### Rules -/

variable {E : ε → History I → Prop} {R : History I → Prop} {Q : α → History I → Prop}

/-- A program without steps makes no progress. -/
theorem carries_idle {x : ExceptT ε (Prog I) α} (lasting : Lasting w.Idle R)
    (only : x.run.Only w.Idle) (fails : ∀ error past, R past → E error past) :
    Upholds (w.Next IsPlan) E R (fun _ => R) x := by
  apply upholds_kept lasting only _ fails
  intro past op _ idle step
  exact absurd (idle.symm.trans step) Bool.false_ne_true

/-- A question that is no step. -/
theorem carries_look {op : I.Op} (lasting : Lasting w.Idle R) (idle : w.Idle op) :
    Upholds (w.Next IsPlan) E R (fun _ => R)
      (monadLift (perform op : Prog I (I.Ans op)) : ExceptT ε (Prog I) (I.Ans op)) := by
  intro past known
  apply judged_ask
  · exact fun step => absurd (idle.symm.trans step) Bool.false_ne_true
  · exact fun ans => lasting past _ idle known

/-- The next step of a plan. -/
theorem carries_step {op : I.Op} {rest : List I.Op} (isPlan : IsPlan (done ++ op :: rest))
    (step : w.isStep op = true) :
    Upholds (w.Next IsPlan) E (w.Progress done) (fun ans => w.Stepped done ⟨op, ans⟩)
      (monadLift (perform op : Prog I (I.Ans op)) : ExceptT ε (Prog I) (I.Ans op)) := by
  intro past progress
  apply judged_ask
  · exact fun _ => ⟨done, rest, progress, isPlan⟩
  · exact fun ans => ⟨past, rfl, progress, step⟩

/-! ### Steps of answering programs -/

variable {J : Interface} {w' : Steppers J} {h : (op : I.Op) → Prog J (I.Ans op)}
  {events : List (Event I)} {trace : List (Event J)}

/-- Where no step was taken above, none was below. -/
theorem taken_refined_nil (each : ∀ op, w.Idle op → (h op).Only w'.Idle)
    (refined : Refined h events trace) (untouched : w.taken events = []) : w'.taken trace = [] := by
  have idle : ∀ e ∈ trace, w'.Idle e.op := by
    apply refined_only (P := w'.Idle) refined
    intro e member
    have none := List.filter_eq_nil_iff.mp untouched e member
    exact each e.op (Bool.eq_false_iff.mpr none)
  apply List.filter_eq_nil_iff.mpr
  intro e member step
  exact absurd ((idle e member).symm.trans step) Bool.false_ne_true

/-- The steps below are those of the program that answered the only step above. -/
theorem taken_refined_only (each : ∀ op, w.Idle op → (h op).Only w'.Idle)
    (refined : Refined h events trace) (only : w.taken events = [e]) :
    ∃ piece, Steps (h e.op) piece (.ret e.ans) ∧ w'.taken trace = w'.taken piece := by
  have member : e ∈ w.taken events := only ▸ List.mem_singleton_self e
  obtain ⟨member, step⟩ := List.mem_filter.mp member
  obtain ⟨before, after, rfl⟩ := List.append_of_mem member
  obtain ⟨first, piece, rest, rfl, earlier, answered, later⟩ := refined_split refined
  rw [← List.singleton_append, taken_append, taken_append, taken_step step] at only
  have parts := congrArg List.length only
  simp only [List.length_append, List.length_singleton] at parts
  have before : w.taken before = [] := List.eq_nil_of_length_eq_zero (by omega)
  have after : w.taken after = [] := List.eq_nil_of_length_eq_zero (by omega)
  refine ⟨piece, answered, ?_⟩
  rw [taken_append, taken_append, taken_refined_nil each earlier before,
    taken_refined_nil each later after]
  simp

/-- If all steps below a step that worked have worked, all steps have. -/
theorem worked_refined (each : ∀ op, w.Idle op → (h op).Only w'.Idle)
    (below : ∀ e piece, w.isStep e.op = true → w.worked e = true →
      Steps (h e.op) piece (.ret e.ans) → ∀ e' ∈ w'.taken piece, w'.worked e' = true)
    (refined : Refined h events trace) (worked : ∀ e ∈ w.taken events, w.worked e = true) :
    ∀ e' ∈ w'.taken trace, w'.worked e' = true := by
  intro e' member
  obtain ⟨member, step⟩ := List.mem_filter.mp member
  refine refined_each (P := fun e' => w'.isStep e'.op = true → w'.worked e' = true) refined ?_
    e' member step
  intro e known piece answered e' inside step
  by_cases above : w.isStep e.op = true
  · have done := worked e (List.mem_filter.mpr ⟨known, above⟩)
    exact below e piece above done answered e' (List.mem_filter.mpr ⟨inside, step⟩)
  · have idle := only_steps (each e.op (Bool.eq_false_iff.mpr above)) answered e' inside
    exact absurd (Eq.trans idle.symm step) Bool.false_ne_true

/-- What a history below emits is what the steps above stand for, one after the other. -/
theorem emitted_refined {κ : Type} {emit : Event J → List κ} {serves : Event J → Prop}
    {stands : I.Op → List κ}
    (each : ∀ op, w.Idle op → (h op).Only fun op => ∀ ans, emit ⟨op, ans⟩ = [])
    (below : ∀ e piece, w.isStep e.op = true → w.worked e = true →
      Steps (h e.op) piece (.ret e.ans) → (∀ e' ∈ piece, serves e') →
      piece.flatMap emit = stands e.op)
    (refined : Refined h events trace) (served : ∀ e ∈ trace, serves e)
    (worked : ∀ e ∈ w.taken events, w.worked e = true) :
    trace.flatMap emit = ((w.taken events).map Event.op).flatMap stands := by
  obtain ⟨pieces, answered, rfl⟩ := refined
  induction answered with
  | nil => rfl
  | @cons e piece events pieces first rest ih =>
    rw [List.flatten_cons] at served ⊢
    obtain ⟨here, later⟩ := List.forall_mem_append.mp served
    rw [← List.singleton_append, taken_append] at worked ⊢
    obtain ⟨now, after⟩ := List.forall_mem_append.mp worked
    rw [List.flatMap_append, List.map_append, List.flatMap_append, ih after later]
    congr 1
    by_cases step : w.isStep e.op = true
    · rw [taken_step step] at now ⊢
      have done := now e (List.mem_singleton_self e)
      simp [below e piece step done first here]
    · have idle : w.Idle e.op := Bool.eq_false_iff.mpr step
      have silent : piece.flatMap emit = [] := by
        apply List.flatMap_eq_nil_iff.mpr
        intro e' member
        exact only_steps (each e.op idle) first e' member e'.ans
      simp [taken_idle idle, silent]

end Steppers

theorem upholds_range' {allows : History I → I.Op → Prop} {E : ε → History I → Prop}
    {R : Nat → History I → Prop} {f : Nat → ExceptT ε (Prog I) PUnit} (start n : Nat)
    (each : ∀ index, start ≤ index → index < start + n →
      Upholds allows E (R index) (fun _ => R (index + 1)) (f index)) :
    Upholds allows E (R start) (fun _ => R (start + n)) ((List.range' start n).forM f) := by
  induction n generalizing start with
  | zero => exact upholds_pure fun _ => id
  | succ n ih =>
    rw [List.range'_succ, List.forM_eq_forM, List.forM_cons]
    apply upholds_bind (each start (Nat.le_refl start) (by omega))
    intro _
    have rest := ih (start + 1) fun index first last => each index (by omega) (by omega)
    rwa [Nat.add_right_comm] at rest

/-- A loop over the numbers below a bound. -/
theorem upholds_range {allows : History I → I.Op → Prop} {E : ε → History I → Prop}
    {R : Nat → History I → Prop} {f : Nat → ExceptT ε (Prog I) PUnit} (n : Nat)
    (each : ∀ index < n, Upholds allows E (R index) (fun _ => R (index + 1)) (f index)) :
    Upholds allows E (R 0) (fun _ => R n) ((List.range n).forM f) := by
  have loop := @upholds_range' _ _ _ _ R f 0 n fun index _ last => each index (by simpa using last)
  rwa [Nat.zero_add, ← List.range_eq_range'] at loop

end Prog
