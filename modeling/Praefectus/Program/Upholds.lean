import Praefectus.Program.Refusals
import Praefectus.Program.Verdicts

/-!
# Programs that remember

What a program may ask can depend on all that was asked and answered before. The triples here
take what is known of the past to what is known at the end, with the value or with the error.
-/

namespace Prog

variable {I : Interface} {α β ε : Type}

abbrev History (I : Interface) := List (Event I)

/-- The monitor that remembers everything. -/
def remember (allows : History I → I.Op → Prop) : Monitor I (History I) :=
  ⟨fun past e => past ++ [e], allows⟩

theorem after_remember (allows : History I → I.Op → Prop) (past trace : History I) :
    (remember allows).after past trace = past ++ trace := by
  induction trace generalizing past with
  | nil => exact (List.append_nil past).symm
  | cons e trace ih =>
    have rest := ih (past ++ [e])
    rw [List.append_assoc, List.singleton_append] at rest
    exact rest

/-- What questions of one kind cannot make untrue. -/
def Lasting (quiet : I.Op → Prop) (R : History I → Prop) : Prop :=
  ∀ past e, quiet e.op → R past → R (past ++ [e])

/-- From a past of which `R` is known, the program asks what is allowed, and ends with `Q` of its
value or with `E` of its error. -/
def Upholds (allows : History I → I.Op → Prop) (E : ε → History I → Prop) (R : History I → Prop)
    (Q : α → History I → Prop) (x : ExceptT ε (Prog I) α) : Prop :=
  ∀ past, R past → Judged (remember allows) Q E x past

variable {allows : History I → I.Op → Prop} {E : ε → History I → Prop} {R : History I → Prop}
  {Q Q' : α → History I → Prop} {quiet : I.Op → Prop}

/-! ### Runs -/

theorem upholds_run {x : ExceptT ε (Prog I) α} (upholds : Upholds allows E R Q x)
    (known : R []) {trace : History I} {result : Except ε α}
    (run : Steps x.run trace (.ret result)) : Verdict Q E result trace := by
  have verdict := judged_run (upholds [] known) run
  rwa [after_remember, List.nil_append] at verdict

theorem upholds_asks {x : ExceptT ε (Prog I) α} (upholds : Upholds allows E R Q x)
    (known : R []) {before after : History I} {e : Event I} {p : Prog I (Except ε α)}
    (run : Steps x.run (before ++ e :: after) p) : allows before e.op := by
  have allowed := judged_asks (upholds [] known) run
  rwa [after_remember, List.nil_append] at allowed

theorem upholds_pending {x : ExceptT ε (Prog I) α} (upholds : Upholds allows E R Q x)
    (known : R []) {trace : History I} {op : I.Op} {next : I.Ans op → Prog I (Except ε α)}
    (run : Steps x.run trace (.ask op next)) (ans : I.Ans op) : allows trace op := by
  have longer : Steps x.run (trace ++ ⟨op, ans⟩ :: []) (next ans) :=
    steps_trans run (.step ans (.refl _))
  exact upholds_asks upholds known longer

/-! ### Lasting facts -/

theorem lasting_and {S : History I → Prop} (first : Lasting quiet R) (second : Lasting quiet S) :
    Lasting quiet fun past => R past ∧ S past :=
  fun past e asked known => ⟨first past e asked known.1, second past e asked known.2⟩

theorem lasting_const (p : Prop) : Lasting quiet fun _ => p := fun _ _ _ => id

theorem lasting_mem (e : Event I) : Lasting quiet fun past => e ∈ past :=
  fun _ _ _ member => List.mem_append_left _ member

theorem lasting_exists {κ : Type} {S : κ → History I → Prop} (each : ∀ k, Lasting quiet (S k)) :
    Lasting quiet fun past => ∃ k, S k past := by
  rintro past e asked ⟨k, known⟩
  exact ⟨k, each k past e asked known⟩

theorem lasting_mono {asked : I.Op → Prop} (lasting : Lasting quiet R)
    (narrower : ∀ op, asked op → quiet op) : Lasting asked R :=
  fun past e now known => lasting past e (narrower e.op now) known

/-- What lasts outlasts any further history. -/
theorem lasting_append (lasting : Lasting (fun _ => True) R) {past : History I} (known : R past)
    (more : History I) : R (past ++ more) := by
  induction more generalizing past with
  | nil => rwa [List.append_nil]
  | cons e more ih =>
    have later := ih (lasting past e trivial known)
    rwa [List.append_assoc, List.singleton_append] at later

/-! ### Rules -/

theorem upholds_pure {value : α} (holds : ∀ past, R past → Q value past) :
    Upholds allows E R Q (pure value) := fun past known => judged_pure (holds past known)

theorem upholds_throw {e : ε} (holds : ∀ past, R past → E e past) :
    Upholds allows E R Q (throw e) := fun past known => judged_throw (holds past known)

theorem upholds_bind {S : β → History I → Prop} {x : ExceptT ε (Prog I) α}
    {f : α → ExceptT ε (Prog I) β} (first : Upholds allows E R Q x)
    (rest : ∀ a, Upholds allows E (Q a) S (f a)) : Upholds allows E R S (x >>= f) :=
  fun past known => judged_bind (judged_mono (first past known) rest fun _ _ => id)

theorem upholds_mono {x : ExceptT ε (Prog I) α} (upholds : Upholds allows E R Q x)
    (weaker : ∀ a past, Q a past → Q' a past) : Upholds allows E R Q' x :=
  fun past known => judged_mono (upholds past known) weaker fun _ _ => id

theorem upholds_of (R' : History I → Prop) {x : ExceptT ε (Prog I) α} (known : ∀ past, R past → R' past)
    (upholds : Upholds allows E R' Q x) : Upholds allows E R Q x :=
  fun past holds => upholds past (known past holds)

theorem upholds_fails {E' : ε → History I → Prop} {x : ExceptT ε (Prog I) α}
    (upholds : Upholds allows E' R Q x) (weaker : ∀ e past, E' e past → E e past) :
    Upholds allows E R Q x :=
  fun past known => judged_mono (upholds past known) (fun _ _ => id) weaker

/-- A program that may fail, whose result is looked at. -/
theorem upholds_attempt {E' : ε → History I → Prop} {x : ExceptT ε (Prog I) α}
    (upholds : Upholds allows E' R Q x) :
    Upholds allows E R (Verdict Q E') (monadLift x.run : ExceptT ε (Prog I) (Except ε α)) := by
  intro past known
  rw [Judged, run_monadLift]
  apply follows_bind
  exact follows_mono (upholds past known) fun _ _ => id

/-- What is known, and does not speak of the past. -/
theorem upholds_given {p : Prop} {x : ExceptT ε (Prog I) α}
    (upholds : p → Upholds allows E R Q x) : Upholds allows E (fun past => R past ∧ p) Q x :=
  fun past known => upholds known.2 past known.1

theorem upholds_exists {κ : Type} {S : κ → History I → Prop} {x : ExceptT ε (Prog I) α}
    (each : ∀ k, Upholds allows E (S k) Q x) :
    Upholds allows E (fun past => ∃ k, S k past) Q x := by
  rintro past ⟨k, known⟩
  exact each k past known

theorem upholds_ite {c : Prop} [Decidable c] {x y : ExceptT ε (Prog I) α}
    (positive : c → Upholds allows E R Q x) (negative : ¬ c → Upholds allows E R Q y) :
    Upholds allows E R Q (if c then x else y) := by
  split
  · exact positive ‹c›
  · exact negative ‹¬ c›

/-- Of a question, its answer is remembered. -/
theorem upholds_ask {op : I.Op} (lasting : Lasting quiet R) (asked : quiet op)
    (allowed : ∀ past, R past → allows past op) :
    Upholds allows E R (fun ans past => R past ∧ (⟨op, ans⟩ : Event I) ∈ past)
      (monadLift (perform op : Prog I (I.Ans op)) : ExceptT ε (Prog I) (I.Ans op)) := by
  intro past known
  apply judged_ask (allowed past known)
  intro ans
  exact ⟨lasting past _ asked known, List.mem_append_right _ List.mem_cons_self⟩

/-- A program that asks quiet questions only adds its run to the past. -/
theorem follows_ran {p : Prog I α} {past : History I} (lasting : Lasting quiet R)
    (only : p.Only quiet) (allowed : ∀ past op, R past → quiet op → allows past op)
    (known : R past) :
    p.Follows (remember allows).Move
      (fun a now => R now ∧ ∃ trace, Steps p trace (.ret a) ∧ now = past ++ trace) past := by
  induction p generalizing past with
  | ret value => exact ⟨known, [], .refl _, by simp⟩
  | ask op next ih =>
    intro ans
    refine ⟨_, ⟨allowed past op known only.1, rfl⟩, ?_⟩
    apply follows_mono (ih ans (only.2 ans) (lasting past _ only.1 known))
    rintro a now ⟨later, trace, run, rfl⟩
    exact ⟨later, ⟨op, ans⟩ :: trace, .step ans run, by simp⟩

theorem upholds_ran {p : Prog I α} (lasting : Lasting quiet R) (only : p.Only quiet)
    (allowed : ∀ past op, R past → quiet op → allows past op) :
    Upholds allows E R
      (fun a past => R past ∧ ∃ trace, Steps p trace (.ret a) ∧ ∀ e ∈ trace, e ∈ past)
      (monadLift p : ExceptT ε (Prog I) α) := by
  intro past known
  rw [Judged, run_monadLift]
  apply follows_bind
  apply follows_mono (follows_ran lasting only allowed known)
  rintro a now ⟨later, trace, run, rfl⟩
  exact ⟨later, trace, run, fun e member => List.mem_append_right _ member⟩

/-- A program that asks quiet questions only leaves what is known. -/
theorem upholds_kept {x : ExceptT ε (Prog I) α} (lasting : Lasting quiet R) (only : x.run.Only quiet)
    (allowed : ∀ past op, R past → quiet op → allows past op)
    (fails : ∀ e past, R past → E e past) : Upholds allows E R (fun _ => R) x := by
  intro past known
  apply follows_mono (follows_ran lasting only allowed known)
  rintro result now ⟨later, _⟩
  cases result with
  | ok a => exact later
  | error e => exact fails e now later

/-- A lifted program, piece by piece. -/
theorem upholds_lift_bind {S : β → History I → Prop} {p : Prog I α} {f : α → Prog I β}
    (first : Upholds allows E R Q (monadLift p : ExceptT ε (Prog I) α))
    (rest : ∀ a, Upholds allows E (Q a) S (monadLift (f a) : ExceptT ε (Prog I) β)) :
    Upholds allows E R S (monadLift (p >>= f) : ExceptT ε (Prog I) β) := by
  rw [show (monadLift (p >>= f) : ExceptT ε (Prog I) β) = monadLift p >>= fun a => monadLift (f a)
    from monadLift_bind p f]
  exact upholds_bind first rest

/-- Where everything is allowed, a triple speaks of the completed runs. -/
theorem upholds_of_runs {x : ExceptT ε (Prog I) α}
    (each : ∀ past trace result, R past → Steps x.run trace (.ret result) →
      Verdict Q E result (past ++ trace)) : Upholds (fun _ _ => True) E R Q x := by
  intro past known
  have runs : ∀ trace result, Steps x.run trace (.ret result) → Verdict Q E result (past ++ trace) :=
    fun trace result => each past trace result known
  unfold Judged
  clear each known
  generalize x.run = p at runs ⊢
  induction p generalizing past with
  | ret result =>
    have verdict := runs [] result (.refl _)
    rwa [List.append_nil] at verdict
  | ask op next ih =>
    intro ans
    refine ⟨_, ⟨trivial, rfl⟩, ih ans (past ++ [⟨op, ans⟩]) fun trace result run => ?_⟩
    have verdict := runs (⟨op, ans⟩ :: trace) result (.step ans run)
    rwa [List.append_cons] at verdict

/-- What happened earlier is put before all that the triple speaks of. -/
theorem upholds_after (earlier : History I) {x : ExceptT ε (Prog I) α}
    (upholds : Upholds (fun past => allows (earlier ++ past)) (fun e past => E e (earlier ++ past))
      R Q x) :
    Upholds allows E (fun past => ∃ since, past = earlier ++ since ∧ R since)
      (fun a past => ∃ since, past = earlier ++ since ∧ Q a since) x := by
  rintro _ ⟨past, rfl, known⟩
  have judged := upholds past known
  unfold Judged at judged ⊢
  clear known upholds
  generalize x.run = p at judged ⊢
  induction p generalizing past with
  | ret result =>
    cases result with
    | ok a => exact ⟨past, rfl, judged⟩
    | error e => exact judged
  | ask op next ih =>
    intro ans
    obtain ⟨_, ⟨allowed, rfl⟩, rest⟩ := judged ans
    refine ⟨_, ⟨allowed, rfl⟩, ?_⟩
    have later := ih ans (past ++ [⟨op, ans⟩]) rest
    rwa [← List.append_assoc] at later

end Prog
