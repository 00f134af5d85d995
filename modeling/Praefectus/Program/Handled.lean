import Mathlib.Data.List.Forall2
import Praefectus.Program.Histories

/-!
# Programs whose questions are answered by programs

The questions of a program over one interface are answered by programs over another. A history
of the whole is a history of the program above, with the history of the answering program in
place of each of its questions.
-/

namespace Prog

variable {I J : Interface} {α β ε : Type} {h : (op : I.Op) → Prog J (I.Ans op)}

/-- Each question is answered by a program over the other interface. -/
def handle (h : (op : I.Op) → Prog J (I.Ans op)) : Prog I α → Prog J α
  | .ret value => .ret value
  | .ask op next => h op >>= fun ans => (next ans).handle h

/-- The questions below are those of the answering programs. -/
theorem only_handle {P : I.Op → Prop} {R : J.Op → Prop} {p : Prog I α} (only : p.Only P)
    (each : ∀ op, P op → (h op).Only R) : (p.handle h).Only R := by
  induction p with
  | ret value => trivial
  | ask op next ih => exact only_bind (each op only.1) fun ans => ih ans (only.2 ans)

/-! ### Histories -/

/-- The history below is made of one piece for each event above: a history of the program that
answered it. -/
def Refined (h : (op : I.Op) → Prog J (I.Ans op)) (events : List (Event I))
    (trace : List (Event J)) : Prop :=
  ∃ pieces, List.Forall₂ (fun e piece => Steps (h e.op) piece (.ret e.ans)) events pieces ∧
    trace = pieces.flatten

theorem refined_nil : Refined h [] [] := ⟨[], .nil, rfl⟩

theorem refined_cons {e : Event I} {events : List (Event I)} {piece trace : List (Event J)}
    (answered : Steps (h e.op) piece (.ret e.ans)) (rest : Refined h events trace) :
    Refined h (e :: events) (piece ++ trace) := by
  obtain ⟨pieces, each, rfl⟩ := rest
  exact ⟨piece :: pieces, .cons answered each, rfl⟩

/-- The piece of one of the events. -/
theorem refined_piece {events : List (Event I)} {trace : List (Event J)}
    (refined : Refined h events trace) {e : Event I} (member : e ∈ events) :
    ∃ piece, Steps (h e.op) piece (.ret e.ans) ∧ piece.Sublist trace := by
  obtain ⟨pieces, each, rfl⟩ := refined
  induction each with
  | nil => exact absurd member List.not_mem_nil
  | @cons e' piece events pieces answered _ ih =>
    rcases List.mem_cons.mp member with rfl | member
    · exact ⟨piece, answered, List.sublist_append_left _ _⟩
    · obtain ⟨piece', answered', part⟩ := ih member
      exact ⟨piece', answered', part.trans (List.sublist_append_right _ _)⟩

/-- The history below is cut where the one above is. -/
theorem refined_split {before after : List (Event I)} {e : Event I} {trace : List (Event J)}
    (refined : Refined h (before ++ e :: after) trace) :
    ∃ first piece rest, trace = first ++ piece ++ rest ∧ Refined h before first ∧
      Steps (h e.op) piece (.ret e.ans) ∧ Refined h after rest := by
  obtain ⟨pieces, each, rfl⟩ := refined
  induction before generalizing pieces with
  | nil =>
    cases each with
    | @cons _ piece _ pieces answered each =>
      exact ⟨[], piece, pieces.flatten, rfl, refined_nil, answered, pieces, each, rfl⟩
  | cons e' before ih =>
    cases each with
    | @cons _ piece' _ pieces answered each =>
      obtain ⟨first, piece, rest, same, before, answered', after⟩ := ih pieces each
      refine ⟨piece' ++ first, piece, rest, ?_, refined_cons answered before, answered', after⟩
      rw [List.flatten_cons, same, List.append_assoc, List.append_assoc, List.append_assoc]

/-- What is so of each piece is so of the whole. -/
theorem refined_each {P : Event J → Prop} {events : List (Event I)} {trace : List (Event J)}
    (refined : Refined h events trace)
    (each : ∀ e ∈ events, ∀ piece, Steps (h e.op) piece (.ret e.ans) → ∀ e' ∈ piece, P e') :
    ∀ e' ∈ trace, P e' := by
  obtain ⟨pieces, answered, rfl⟩ := refined
  induction answered with
  | nil => exact List.forall_mem_nil _
  | @cons e piece events pieces answered _ ih =>
    obtain ⟨first, rest⟩ := List.forall_mem_cons.mp each
    rw [List.flatten_cons]
    exact List.forall_mem_append.mpr ⟨first piece answered, ih rest⟩

/-- What is asked below, one of the answering programs asked. -/
theorem refined_only {P : J.Op → Prop} {events : List (Event I)} {trace : List (Event J)}
    (refined : Refined h events trace) (each : ∀ e ∈ events, (h e.op).Only P) :
    ∀ e ∈ trace, P e.op :=
  refined_each refined fun e member _ answered => only_steps (each e member) answered

/-- Where a history goes on, the program had come to the question. -/
theorem steps_paused {p q : Prog I α} {before after : List (Event I)} {e : Event I}
    (run : Steps p (before ++ e :: after) q) : ∃ next, Steps p before (.ask e.op next) := by
  induction before generalizing p with
  | nil =>
    cases run with
    | @step _ next ans _ => exact ⟨next, .refl _⟩
  | cons first before ih =>
    cases run with
    | step ans rest =>
      obtain ⟨next, run⟩ := ih rest
      exact ⟨next, .step ans run⟩

/-- A completed run of the whole is one of the program above. -/
theorem steps_handle {p : Prog I α} {trace : List (Event J)} {value : α} :
    Steps (p.handle h) trace (.ret value) ↔
      ∃ events, Steps p events (.ret value) ∧ Refined h events trace := by
  constructor
  · intro run
    induction p generalizing trace with
    | ret value' =>
      obtain ⟨rfl, rfl⟩ := steps_ret.mp run
      exact ⟨[], .refl _, refined_nil⟩
    | ask op next ih =>
      -- the run is cut where the answer to the question was found
      obtain ⟨piece, ans, rest, rfl, answered, run⟩ := steps_bind.mp run
      obtain ⟨events, above, refined⟩ := ih ans run
      exact ⟨⟨op, ans⟩ :: events, .step ans above, refined_cons answered refined⟩
  · rintro ⟨events, above, pieces, each, rfl⟩
    induction each generalizing p with
    | nil =>
      cases above
      exact .refl _
    | @cons e piece events pieces answered _ ih =>
      cases above with
      | step ans above => exact steps_bind.mpr ⟨piece, ans, _, rfl, answered, ih above⟩

/-- A run of the whole that has come to a question is in the middle of an answer. -/
theorem steps_handle_ask {p : Prog I α} {trace : List (Event J)} {op : J.Op}
    {next : J.Ans op → Prog J α} (run : Steps (p.handle h) trace (.ask op next)) :
    ∃ events before rest op' next' next'', trace = before ++ rest ∧
      Steps p events (.ask op' next') ∧ Refined h events before ∧
      Steps (h op') rest (.ask op next'') := by
  induction p generalizing trace with
  | ret value => cases run
  | ask op' next' ih =>
    rcases steps_bind_ask run with ⟨next'', inside⟩ | ⟨piece, ans, rest, rfl, answered, run⟩
    · exact ⟨[], [], trace, op', next', next'', rfl, .refl _, refined_nil, inside⟩
    · obtain ⟨events, before, rest, op'', later, next'', rfl, above, refined, inside⟩ := ih ans run
      refine ⟨⟨op', ans⟩ :: events, piece ++ before, rest, op'', later, next'', ?_, .step ans above,
        refined_cons answered refined, inside⟩
      rw [List.append_assoc]

/-! ### Questions asked in other words -/

section

variable {f : I.Op → J.Op} (told : (op : I.Op) → J.Ans (f op) → I.Ans op)

/-- The questions of a program, asked of another interface that answers alike. -/
def rename (f : I.Op → J.Op) (told : (op : I.Op) → J.Ans (f op) → I.Ans op) : Prog I α → Prog J α :=
  handle fun op => .ask (f op) fun ans => .ret (told op ans)

/-- Each event below is one above, in other words. -/
theorem steps_renamed {p : Prog I α} {trace : List (Event J)} {q : Prog J α}
    (run : Steps (p.rename f told) trace q) :
    ∃ events p', Steps p events p' ∧ q = p'.rename f told ∧
      List.Forall₂ (fun e e' => ∃ ans, e' = ⟨f e.op, ans⟩ ∧ e.ans = told e.op ans) events trace := by
  induction p generalizing trace with
  | ret value =>
    cases run
    exact ⟨[], .ret value, .refl _, rfl, .nil⟩
  | ask op next ih =>
    cases run with
    | refl => exact ⟨[], .ask op next, .refl _, rfl, .nil⟩
    | step ans run =>
      obtain ⟨events, p', above, same, each⟩ := ih _ run
      exact ⟨⟨op, told op ans⟩ :: events, p', .step _ above, same, .cons ⟨ans, rfl, rfl⟩ each⟩

theorem steps_rename {p : Prog I α} {trace : List (Event J)} {value : α}
    (run : Steps (p.rename f told) trace (.ret value)) :
    ∃ events, Steps p events (.ret value) ∧
      List.Forall₂ (fun e e' => ∃ ans, e' = ⟨f e.op, ans⟩ ∧ e.ans = told e.op ans) events trace := by
  obtain ⟨events, p', above, same, each⟩ := steps_renamed told run
  cases p' with
  | ask op next => nomatch same
  | ret value' =>
    obtain rfl : value = value' := Prog.ret.inj same
    exact ⟨events, above, each⟩

/-- What the events above have in common, in other words, those below have. -/
theorem renamed_each {P : Event I → Prop} {P' : Event J → Prop} {events : List (Event I)}
    {trace : List (Event J)}
    (each : List.Forall₂ (fun e e' => ∃ ans, e' = ⟨f e.op, ans⟩ ∧ e.ans = told e.op ans) events trace)
    (same : ∀ op ans, P ⟨op, told op ans⟩ → P' ⟨f op, ans⟩) (all : ∀ e ∈ events, P e) :
    ∀ e' ∈ trace, P' e' := by
  induction each with
  | nil => exact List.forall_mem_nil _
  | cons first _ ih =>
    obtain ⟨here, later⟩ := List.forall_mem_cons.mp all
    obtain ⟨ans, rfl, answered⟩ := first
    apply List.forall_mem_cons.mpr ⟨same _ ans _, ih later⟩
    rwa [← answered]

end

end Prog
