import Praefectus.Native.Plans
import Praefectus.Program.Answered

/-!
# A dispatch carries out its plan
-/

namespace Praefectus.Native

open Prog Steppers

/-! ### Typing -/

/-- The pieces of a text are the whole text. -/
theorem pieces_whole (size : Nat) (chunk : String) (text : List Char) :
    (pieces size chunk text).flatMap String.toList = chunk.toList ++ text := by
  induction text generalizing chunk with
  | nil =>
    rw [pieces]
    split
    next empty => simp [empty]
    next => simp
  | cons character rest ih =>
    rw [pieces]
    split
    · simp [ih]
    · simp [ih]

theorem typingPlan_ne_nil {text : String} (nonempty : text ≠ "") (clear pressReturn : Bool)
    (delayMs : Option UInt64) : typingPlan text clear pressReturn delayMs ≠ [] := by
  intro none
  have whole := pieces_whole (chunkSize delayMs) "" text.toList
  simp only [typingPlan, List.append_eq_nil_iff, List.map_eq_nil_iff] at none
  rw [none.1.2] at whole
  exact nonempty (String.toList_eq_nil_iff.mp whole.symm)

section

variable {Plan : List DesktopOp → Prop} {deadlineAtMs : Int64} {done rest : List DesktopOp}
  {text : String} {clear pressReturn : Bool} {delayMs : Option UInt64}

abbrev Types (Plan : List DesktopOp → Prop) {α : Type} (R : Past → Prop) (Q : α → Past → Prop)
    (x : DispatchM Desktop α) : Prop :=
  Upholds (work.Next Plan) (fun error => Tells (.error error)) R Q x

theorem types_sendText (isPlan : Plan (done ++ typeOp text clear pressReturn delayMs :: rest)) :
    Types Plan (work.Progress done)
      (fun _ => work.Progress (done ++ [typeOp text clear pressReturn delayMs]))
      (sendText sendTypeText text clear pressReturn delayMs) := by
  apply upholds_bind (carries_step isPlan rfl)
  intro answer
  cases answer with
  | ok value => exact upholds_pure fun _ stepped => progress_stepped stepped rfl
  | error e => exact upholds_throw fun past _ => tells_unknown rfl past

theorem types_checkTyping {effectStarted : Bool} (fresh : effectStarted = false → done = []) :
    Types Plan (work.Progress done) (fun _ => work.Progress done)
      (checkTyping boundary deadlineAtMs effectStarted) := by
  apply carries_stop lasting_progress
  cases effectStarted with
  | true => exact upholds_throw fun past _ => tells_unknown rfl past
  | false =>
    obtain rfl := fresh rfl
    apply upholds_bind (carries_look lasting_progress rfl)
    intro cancelled
    cases cancelled with
    | true => exact upholds_throw fun _ => tells_untouched _
    | false => exact upholds_throw fun _ => tells_untouched _

/-- What was typed, the text in hand and the text to come make up the plan. -/
def Typing (plan : List DesktopOp) (pressReturn : Bool) (delayMs : Option UInt64)
    (remaining : List Char) (chunk : String × Bool) (past : Past) : Prop :=
  ∃ done, work.Progress done past ∧ (chunk.2 = false → done = []) ∧
    plan = done ++ (pieces (chunkSize delayMs) chunk.1 remaining).map (typeOp · false false delayMs) ++
      typingEnd pressReturn

variable {plan : List DesktopOp}

theorem types_typeCharacter (isPlan : Plan plan) (character : Char) (remaining : List Char)
    (chunk : String × Bool) :
    Types Plan (Typing plan pressReturn delayMs (character :: remaining) chunk)
      (Typing plan pressReturn delayMs remaining)
      (typeCharacter boundary deadlineAtMs sendTypeText delayMs chunk character) := by
  apply upholds_exists
  intro done
  apply upholds_of (fun past => work.Progress done past ∧ _) (fun _ => id)
  apply upholds_given
  rintro ⟨fresh, whole⟩
  apply upholds_bind (types_checkTyping fresh)
  intro _
  rw [pieces] at whole
  apply upholds_ite
  · intro full
    rw [if_pos full, List.map_cons] at whole
    subst whole
    rw [List.append_assoc, List.cons_append] at isPlan
    apply upholds_bind (types_sendText isPlan)
    intro _
    apply upholds_pure
    intro past progress
    refine ⟨_, progress, Bool.noConfusion, ?_⟩
    simp
  · intro short
    rw [if_neg short] at whole
    exact upholds_pure fun past progress => ⟨done, progress, fresh, whole⟩

theorem types_characters (isPlan : Plan plan) (characters : List Char) (chunk : String × Bool) :
    Types Plan (Typing plan pressReturn delayMs characters chunk)
      (Typing plan pressReturn delayMs [])
      (characters.foldlM (typeCharacter boundary deadlineAtMs sendTypeText delayMs) chunk) := by
  induction characters generalizing chunk with
  | nil => exact upholds_pure fun _ => id
  | cons character rest ih =>
    rw [List.foldlM_cons]
    exact upholds_bind (types_typeCharacter isPlan character rest chunk) ih

/-- The last piece of the text. -/
theorem types_last (isPlan : Plan plan) (chunk : String × Bool) :
    Types Plan (Typing plan pressReturn delayMs [] chunk)
      (fun _ past => ∃ done, work.Progress done past ∧
        ((chunk.2 || chunk.1 ≠ "") = false → done = []) ∧ plan = done ++ typingEnd pressReturn)
      (Prog.when (chunk.1 ≠ "") (sendText sendTypeText chunk.1 false false delayMs)) := by
  apply upholds_exists
  intro done
  apply upholds_of (fun past => work.Progress done past ∧ _) (fun _ => id)
  apply upholds_given
  rintro ⟨fresh, whole⟩
  rw [pieces] at whole
  apply upholds_ite
  · intro left
    rw [if_neg left] at whole
    subst whole
    rw [List.append_assoc] at isPlan
    apply upholds_mono (types_sendText isPlan)
    intro _ past progress
    exact ⟨_, progress, by simp [left], rfl⟩
  · intro none
    rw [not_not] at none
    rw [if_pos none, List.map_nil, List.append_nil] at whole
    exact upholds_pure fun past progress => ⟨done, progress, by simpa [none] using fresh, whole⟩

theorem types_dispatchTypeText (isPlan : Plan (typingPlan text clear pressReturn delayMs)) :
    Types Plan Untouched (fun _ => work.Progress (typingPlan text clear pressReturn delayMs))
      (dispatchTypeText boundary deadlineAtMs sendTypeText text clear pressReturn delayMs) := by
  unfold dispatchTypeText
  apply upholds_ite
  · exact fun _ => upholds_throw fun _ => tells_untouched _
  · intro _
    have cleared : Types Plan Untouched
        (fun _ => Typing (typingPlan text clear pressReturn delayMs) pressReturn delayMs text.toList
          ("", clear)) (Prog.when clear (sendText sendTypeText "" true false none)) := by
      cases clear with
      | true =>
        rw [typingPlan, if_pos rfl, List.append_assoc] at isPlan
        apply upholds_mono (@types_sendText Plan [] _ "" true false none isPlan)
        intro _ past progress
        exact ⟨_, progress, Bool.noConfusion, rfl⟩
      | false => exact upholds_pure fun past untouched => ⟨[], untouched, fun _ => rfl, rfl⟩
    apply upholds_bind cleared
    intro _
    apply upholds_bind (types_characters isPlan text.toList ("", clear))
    intro chunk
    apply upholds_bind (types_last isPlan chunk)
    intro _
    apply upholds_exists
    intro done
    apply upholds_of (fun past => work.Progress done past ∧ _) (fun _ => id)
    apply upholds_given
    rintro ⟨fresh, whole⟩
    apply upholds_bind (types_checkTyping fresh)
    intro _
    rw [whole] at isPlan ⊢
    cases pressReturn with
    | true => exact types_sendText isPlan
    | false =>
      rw [typingEnd, if_neg Bool.false_ne_true, List.append_nil]
      exact upholds_pure fun _ => id

end

/-! ### Input -/

section

variable {Plan : List DesktopOp → Prop} {os : TargetOs} {deadlineAtMs : Int64} {build : Build}
  {action : Action} {verification : VerificationPolicy} {deliveryPid : Int32}

/-- A call once nothing is in its way, and the receipt. -/
theorem carries_typeText {text : String} {clear pressReturn : Bool} {delayMs : Option UInt64}
    (isPlan : Plan (typingPlan text clear pressReturn delayMs)) :
    Carries Plan Untouched (fun _ => work.Progress (typingPlan text clear pressReturn delayMs))
      (do
        raise (dispatchTypeText boundary deadlineAtMs sendTypeText text clear pressReturn delayMs)
        receipt os deadlineAtMs) :=
  upholds_bind (carries_raise (types_dispatchTypeText isPlan)) fun _ =>
    carries_receipt lasting_progress

theorem carries_pressOnce {key : String} {count : UInt32} {delayMs : Option UInt64} (index : Nat)
    {done rest : List DesktopOp} (isPlan : Plan (done ++ .input (.press key 1 none) :: rest)) :
    Carries Plan (work.Progress done)
      (fun _ => work.Progress (done ++ [.input (.press key 1 none)]))
      (pressOnce key count delayMs index) := by
  apply upholds_bind (carries_input rfl isPlan)
  intro _
  cases delayMs with
  | none => exact upholds_pure fun _ => id
  | some delay =>
    apply upholds_ite
    · exact fun _ => carries_look lasting_progress rfl
    · exact fun _ => upholds_pure fun _ => id

/-- Keys and scrolling, whatever the target. -/
theorem carries_keyboard {target : ResolvedTarget} (keyboard : goesToFocus action = true)
    (isPlan : Plan (keyboardPlan action)) :
    Carries Plan Untouched (fun _ => work.Progress (keyboardPlan action))
      (dispatchInput os deadlineAtMs build target verification action) := by
  cases action with
  | typeText text clear pressReturn delayMs => exact carries_typeText isPlan
  | press key count delayMs =>
    apply upholds_bind
    · exact carries_repeatedly count _ isPlan fun _ _ index => carries_pressOnce index
    · exact fun _ => carries_receipt lasting_progress
  | paste text =>
    apply upholds_bind (@carries_input Plan [] [] (.paste text) _ rfl isPlan)
    exact fun _ => carries_receipt lasting_progress
  | hotkey keys =>
    apply upholds_bind (@carries_input Plan [] [] (.hotkey keys) _ rfl isPlan)
    exact fun _ => carries_receipt lasting_progress
  | scroll direction amount =>
    apply upholds_bind
    · exact carries_repeatedly amount _ isPlan fun _ _ _ isPlan => carries_input rfl isPlan
    · exact fun _ => carries_receipt lasting_progress
  | _ => contradiction

/-- A refusal before anything was done. -/
theorem carries_guarded {α : Type} {Q : α → Past → Prop} {c : Prop} [Decidable c]
    {error : DispatchError} {x : NativeM α} (rest : Carries Plan Untouched Q x) :
    Carries Plan Untouched Q (do Prog.when c (fail error); x) :=
  upholds_bind (carries_require c error) fun _ => rest

theorem look_asked {op : DesktopOp} (idle : work.Idle op) : (ask op).Only work.Idle :=
  ⟨idle, fun _ => trivial⟩

theorem looks_resolveCoordinates (x y : Int64)
    (displayId displayGeometryHash snapshotId snapshotContentHash : String) :
    (resolveCoordinates build x y displayId displayGeometryHash snapshotId
      snapshotContentHash).run.Only work.Idle := by
  have fresh : ∀ fresh message, (requireFresh fresh message).run.Only work.Idle := by
    intro fresh message
    cases fresh <;> trivial
  have executor : ∀ {α : Type} (answer : Except NativeError α),
      (orExecutor answer).run.Only work.Idle := by
    intro _ answer
    cases answer <;> trivial
  apply only_try (look_asked rfl) fun _ => only_try (fresh _ _) fun _ => ?_
  apply only_try (only_lift (look_asked rfl)) fun _ => only_try (fresh _ _) fun _ => ?_
  apply only_try (only_lift (look_asked rfl)) fun _ => only_try (fresh _ _) fun _ => ?_
  apply only_try (only_lift (look_asked rfl)) fun _ => only_try (executor _) fun _ => ?_
  apply only_try (fresh _ _) fun _ => ?_
  apply only_try (only_lift (look_asked rfl)) fun _ => only_try (executor _) fun _ => ?_
  exact only_try (fresh _ _) fun _ => only_try (fresh _ _) fun _ => trivial

theorem looks_resolveWithBoundary (target : TargetRef) :
    (resolveWithBoundary os build target deadlineAtMs).run.Only work.Idle := by
  apply only_try
  · apply only_try (only_lift (look_asked rfl))
    intro cancelled
    cases cancelled with
    | true => trivial
    | false =>
      apply only_try (only_lift (look_asked rfl))
      intro nowMs
      by_cases late : nowMs ≥ deadlineAtMs
      · simp only [late, if_true]
        trivial
      · simp only [late, if_false]
        trivial
  · intro _
    cases target with
    | coordinates => exact looks_resolveCoordinates _ _ _ _ _ _
    | element ref =>
      cases os with
      | macos => exact only_try (look_asked rfl) fun _ => trivial
      | _ => trivial
    | none => trivial

/-- A target is resolved before anything was done. -/
theorem carries_resolve (target : TargetRef) :
    Carries Plan Untouched
      (fun resolved past => Untouched past ∧ ∀ found, resolved = .ok found → ResolvesTo target found)
      (monadLift (resolveWithBoundary os build target deadlineAtMs).run) := by
  apply upholds_mono
  · apply upholds_ran lasting_progress (looks_resolveWithBoundary target)
    intro past op _ idle step
    exact absurd (idle.symm.trans step) Bool.false_ne_true
  · rintro resolved past ⟨untouched, trace, run, _⟩
    refine ⟨untouched, ?_⟩
    rintro found rfl
    exact resolved_shape run

/-- A refusal in place of a program that would go on. -/
theorem carries_cut {α β : Type} {Q : β → Past → Prop} {x : NativeM α} {f : α → NativeM β}
    (refused : Carries Plan Untouched (fun _ _ => False) x) : Carries Plan Untouched Q (x >>= f) :=
  upholds_bind refused fun _ _ => False.elim

/-- What makes a plan of an action more than nothing. -/
def IsCounted : Action → Prop
  | .click _ count _ | .press _ count _ | .scroll _ count => 0 < count.toNat
  | .typeText text _ _ _ => text ≠ ""
  | _ => True

theorem of_accepted {valid : Bool} {message : String} {told : Unit}
    (accepted : (if valid then pure () else invalid message) = Except.ok told) : valid = true := by
  cases valid with
  | true => rfl
  | false => exact absurd accepted nofun

theorem counted_of_valid {isDir : PathBuf → Bool} {told : Unit}
    (accepted : validateAction isDir action = .ok told) : IsCounted action := by
  have valid := of_accepted accepted
  have positive {count : UInt32} (least : 1 ≤ count) : 0 < count.toNat :=
    UInt32.le_iff_toNat_le.mp least
  cases action with
  | click button count modifiers =>
    have bounds : 1 ≤ count ∧ count ≤ 3 := by simpa using valid
    exact positive bounds.1
  | typeText text clear pressReturn delayMs =>
    simp only [filled, Bool.and_eq_true, decide_eq_true_eq] at valid
    exact valid.1.1
  | press key count delayMs =>
    simp only [Bool.and_eq_true, decide_eq_true_eq] at valid
    exact positive valid.1.2.1
  | scroll direction amount =>
    have bounds : 1 ≤ amount ∧ amount ≤ 100 := by simpa using valid
    exact positive bounds.1
  | _ => trivial

/-- All of a plan was done, and it was more than nothing. -/
def Whole (plan : List DesktopOp) (past : Past) : Prop := plan ≠ [] ∧ work.Progress plan past

theorem carries_whole {α : Type} {plan : List DesktopOp} {R : Past → Prop} {x : NativeM α}
    (nonempty : plan ≠ []) (carries : Carries Plan R (fun _ => work.Progress plan) x) :
    Carries Plan R (fun _ => Whole plan) x :=
  upholds_mono carries fun _ _ progress => ⟨nonempty, progress⟩

theorem lasting_whole (plan : List DesktopOp) : Lasting work.Idle (Whole plan) :=
  lasting_and (lasting_const (plan ≠ [])) lasting_progress

theorem replicate_ne_nil {n : Nat} (positive : 0 < n) (op : DesktopOp) :
    List.replicate n op ≠ [] := by
  simpa using positive.ne'

theorem keyboardPlan_ne_nil (keyboard : goesToFocus action = true) (counted : IsCounted action) :
    keyboardPlan action ≠ [] := by
  cases action with
  | typeText => exact typingPlan_ne_nil counted _ _ _
  | press => exact replicate_ne_nil counted _
  | scroll => exact replicate_ne_nil counted _
  | paste => exact List.cons_ne_nil _ _
  | hotkey => exact List.cons_ne_nil _ _
  | _ => contradiction

theorem carries_drag {point : NativePoint} {destination : TargetRef} {button : MouseButton}
    (isPlan : Plan (pointerPlan deadlineAtMs point (.drag destination button))) :
    Carries Plan Untouched
      (fun _ => Whole (pointerPlan deadlineAtMs point (.drag destination button)))
      (drag os deadlineAtMs build (.point point) destination button) := by
  apply carries_guarded
  apply upholds_bind (carries_resolve destination)
  intro resolved
  cases resolved with
  | error error => exact upholds_of Untouched (fun _ => And.left) (carries_cut (carries_refuse _))
  | ok found =>
    apply upholds_given
    intro shape
    cases found with
    | point found =>
      cases destination with
      | coordinates x y _ _ _ _ =>
        obtain rfl := ResolvedTarget.point.inj (shape _ rfl)
        have dragged : Carries Plan Untouched _ (do
            raise (checkBeforeEffect boundary deadlineAtMs)
            deed (.drag point ⟨x, y⟩ "left" deadlineAtMs)) :=
          upholds_bind carries_before fun _ => carries_deed isPlan
        exact carries_whole (List.cons_ne_nil _ _) dragged
      | element ref => exact absurd (shape _ rfl) nofun
      | none => exact absurd (shape _ rfl) nofun
    | _ => exact carries_refuse (.noEffect "drag destination is not a fenced coordinate")

theorem pointerPlan_keyboard {point : NativePoint} (keyboard : goesToFocus action = true) :
    pointerPlan deadlineAtMs point action = keyboardPlan action := by
  cases action <;> first | rfl | contradiction

theorem elementPlan_keyboard {element : NativeElement} (keyboard : goesToFocus action = true) :
    elementPlan deadlineAtMs element action = keyboardPlan action := by
  cases action <;> first | rfl | contradiction

theorem carries_point {point : NativePoint} (counted : IsCounted action)
    (isPlan : Plan (pointerPlan deadlineAtMs point action)) :
    Carries Plan Untouched (fun _ => Whole (pointerPlan deadlineAtMs point action))
      (dispatchInput os deadlineAtMs build (.point point) verification action) := by
  by_cases keyboard : goesToFocus action = true
  · rw [pointerPlan_keyboard keyboard] at isPlan ⊢
    exact carries_whole (keyboardPlan_ne_nil keyboard counted) (carries_keyboard keyboard isPlan)
  · cases action with
    | click button count _ =>
      apply carries_whole (replicate_ne_nil counted _)
      apply carries_guarded
      apply carries_guarded
      apply upholds_bind
      · exact carries_repeatedly count _ isPlan fun _ _ _ isPlan => carries_input rfl isPlan
      · exact fun _ => carries_pointerReceipt lasting_progress verification
    | move =>
      apply carries_whole (List.cons_ne_nil _ _)
      apply upholds_bind carries_before
      intro _
      apply upholds_bind (@carries_input Plan [] [] (.moveCursor point) _ rfl isPlan)
      exact fun _ => carries_pointerReceipt lasting_progress verification
    | drag destination button =>
      apply upholds_bind (carries_drag isPlan)
      exact fun _ => carries_pointerReceipt (lasting_whole _) verification
    | setValue value =>
      apply carries_guarded
      exact carries_refuse (.noEffect "set_value requires an element with bounds")
    | selectText => exact carries_refuse _
    | performSecondaryAction => exact carries_refuse _
    | typeText => exact absurd rfl keyboard
    | press => exact absurd rfl keyboard
    | paste => exact absurd rfl keyboard
    | hotkey => exact absurd rfl keyboard
    | scroll => exact absurd rfl keyboard
    | _ => exact carries_unreachable _

/-- A click on an element goes nowhere. -/
theorem carries_clickElement {element : NativeElement} {button : MouseButton} {count : UInt32}
    (positive : 0 < count.toNat) (message : String) :
    Carries Plan Untouched (fun _ _ => False) (repeatedly deadlineAtMs count message fun _ => do
      click button.text (← nativeTarget (.element element))) := by
  apply upholds_of (fun past => Untouched past ∧ 0 = 0) fun _ untouched => ⟨untouched, rfl⟩
  apply upholds_mono
  · apply @upholds_range _ _ _ _ fun index past => Untouched past ∧ index = 0
    intro index _
    apply upholds_given
    rintro rfl
    apply upholds_bind (carries_partly message fun _ => rfl)
    exact fun _ => carries_refuse (.unsupported "click requires a pointer target")
  · exact fun _ _ known => absurd known.2 positive.ne'

theorem carries_element {element : NativeElement} (counted : IsCounted action)
    (isPlan : Plan (elementPlan deadlineAtMs element action)) :
    Carries Plan Untouched (fun _ => Whole (elementPlan deadlineAtMs element action))
      (dispatchInput os deadlineAtMs build (.element element) verification action) := by
  by_cases keyboard : goesToFocus action = true
  · rw [elementPlan_keyboard keyboard] at isPlan ⊢
    exact carries_whole (keyboardPlan_ne_nil keyboard counted) (carries_keyboard keyboard isPlan)
  · cases action with
    | click button count _ =>
      apply carries_guarded
      apply carries_guarded
      exact carries_cut (carries_clickElement counted _)
    | move =>
      apply upholds_bind carries_before
      exact fun _ => carries_refuse .ambiguousDispatch
    | drag destination button =>
      apply carries_cut
      apply carries_guarded
      exact carries_refuse (.noEffect "drag requires a fenced coordinate target")
    | setValue value =>
      apply carries_whole (List.cons_ne_nil _ _)
      apply carries_guarded
      apply carries_guarded
      apply upholds_bind carries_before
      intro _
      apply upholds_bind (carries_deed isPlan)
      exact fun _ => carries_receipt lasting_progress
    | selectText => exact carries_refuse _
    | performSecondaryAction => exact carries_refuse _
    | typeText => exact absurd rfl keyboard
    | press => exact absurd rfl keyboard
    | paste => exact absurd rfl keyboard
    | hotkey => exact absurd rfl keyboard
    | scroll => exact absurd rfl keyboard
    | _ => exact carries_unreachable _

end

/-! ### Dispatch -/

section

variable {os : TargetOs} {deadlineAtMs : Int64} {build : Build} {action : Action}
  {target : ResolvedTarget} {verification : VerificationPolicy} {deliveryPid : Int32}

/-- A plan was carried out. -/
def Accomplished (Plan : List DesktopOp → Prop) (past : Past) : Prop :=
  ∃ plan, Plan plan ∧ Whole plan past

theorem accomplished {α : Type} {Plan : List DesktopOp → Prop} {plan : List DesktopOp}
    {R : Past → Prop} {x : NativeM α} (isPlan : Plan plan)
    (carries : Carries Plan R (fun _ => Whole plan) x) :
    Carries Plan R (fun _ => Accomplished Plan) x :=
  upholds_mono carries fun _ _ whole => ⟨plan, isPlan, whole⟩

variable {Plan : List DesktopOp → Prop}

theorem carries_requireUsable :
    Carries Plan Untouched (fun _ past => Untouched past ∧ target ≠ .none) (requireUsable target) := by
  cases target with
  | point point => exact upholds_pure fun _ untouched => ⟨untouched, nofun⟩
  | element element => exact upholds_mono (carries_require _ _) fun _ _ untouched => ⟨untouched, nofun⟩
  | semantic ref => exact carries_unreachable _
  | none => exact carries_refuse _

theorem carries_dispatchNative (counted : IsCounted action) (bare : auxiliaryCall os action = none)
    (native : ∀ ref, target ≠ .semantic ref)
    (isPlan : ∀ plan, IsPlan os deadlineAtMs action target plan → Plan plan) :
    Carries Plan Untouched (fun _ => Accomplished Plan)
      (dispatchNative os deadlineAtMs build deliveryPid action target verification) := by
  apply upholds_bind carries_requireUsable
  intro _
  apply upholds_given
  intro usable
  apply carries_guarded
  apply upholds_bind (carries_look lasting_progress rfl)
  intro answer
  apply upholds_bind (carries_answer _ answer)
  intro capabilities
  apply carries_guarded
  apply upholds_bind (carries_look lasting_progress rfl)
  intro allowed
  apply carries_guarded
  cases target with
  | point point =>
    have planned : Plan (pointerPlan deadlineAtMs point action) :=
      isPlan _ (by simp only [IsPlan, bare])
    exact accomplished planned (carries_point counted planned)
  | element element =>
    have planned : Plan (elementPlan deadlineAtMs element action) :=
      isPlan _ (by simp only [IsPlan, bare])
    exact accomplished planned (carries_element counted planned)
  | semantic ref => exact absurd rfl (native ref)
  | none => exact absurd rfl usable

/-- The program of an auxiliary action makes the call it opens with, and no other. -/
theorem carries_auxiliaryStatus {status : NativeM Bool} (found : auxiliaryStatus action = some status) :
    ∃ op, opening status.run = some op ∧ ∀ Plan : List DesktopOp → Prop, Plan [op] →
      Carries Plan Untouched (fun success past => success = true → work.Progress [op] past) status := by
  cases action with
  | screenshot path =>
    obtain rfl := Option.some.inj found
    exact ⟨_, rfl, fun _ => carries_command⟩
  | application operation name =>
    cases operation with
    | quit =>
      obtain rfl := Option.some.inj found
      exact ⟨_, rfl, fun _ => carries_command⟩
    | _ =>
      obtain rfl := Option.some.inj found
      exact ⟨_, rfl, fun _ => carries_command⟩
  | window operation app title =>
    obtain rfl := Option.some.inj found
    exact ⟨_, rfl, fun _ => carries_command⟩
  | «open» target app noFocus =>
    obtain rfl := Option.some.inj found
    exact ⟨_, rfl, fun _ => carries_command⟩
  | clipboardWrite text =>
    obtain rfl := Option.some.inj found
    exact ⟨_, rfl, fun _ => carries_copy⟩
  | _ => contradiction

theorem carries_dispatchAuxiliary
    (isPlan : ∀ plan, IsPlan os deadlineAtMs action target plan → Plan plan) :
    Carries Plan Untouched
      (fun done past => (done.isSome = true → Accomplished Plan past) ∧
        (done = none → Untouched past ∧ auxiliaryCall os action = none))
      (dispatchAuxiliary os deadlineAtMs action) := by
  have skipped : auxiliaryCall os action = none → ∀ past, Untouched past →
      ((none : Option DispatchReceipt).isSome = true → Accomplished Plan past) ∧
        ((none : Option DispatchReceipt) = none → Untouched past ∧ auxiliaryCall os action = none) :=
    fun bare past untouched => ⟨nofun, fun _ => ⟨untouched, bare⟩⟩
  cases os with
  | macos =>
    unfold dispatchAuxiliary
    cases found : auxiliaryStatus action with
    | none => exact upholds_pure (skipped (by simp only [auxiliaryCall, found, Option.bind_none]))
    | some status =>
      obtain ⟨op, opens, carries⟩ := carries_auxiliaryStatus found
      have planned : Plan [op] := by
        apply isPlan
        simp only [IsPlan, auxiliaryCall, found, Option.bind_some, opens]
      apply upholds_bind carries_before
      intro _
      apply upholds_bind (carries Plan planned)
      intro success
      cases success with
      | false => exact carries_unknown rfl
      | true =>
        apply upholds_of (work.Progress [op]) (fun _ progress => progress rfl)
        apply upholds_bind (carries_receipt lasting_progress)
        intro done
        apply upholds_pure
        intro past progress
        exact ⟨fun _ => ⟨[op], planned, List.cons_ne_nil _ _, progress⟩, nofun⟩
  | _ =>
    unfold dispatchAuxiliary
    cases found : auxiliaryUnavailable action with
    | none => exact upholds_pure (skipped rfl)
    | some message =>
      apply upholds_bind carries_before
      exact fun _ => carries_refuse _

theorem carries_dispatchWith
    {semantically : Action → SemanticTargetRef → NativeM DispatchReceipt}
    (isPlan : ∀ plan, IsPlan os deadlineAtMs action target plan → Plan plan)
    (each : ∀ ref, target = .semantic ref → IsCounted action → auxiliaryCall os action = none →
      Carries Plan Untouched (fun _ => Accomplished Plan) (semantically action ref)) :
    Carries Plan Untouched (fun _ => Accomplished Plan)
      (dispatchWith os deadlineAtMs semantically build deliveryPid action target verification) := by
  apply upholds_bind carries_before
  intro _
  apply upholds_bind (carries_look lasting_progress rfl)
  intro isDir
  cases accepted : validateAction isDir action with
  | error error => exact carries_cut (carries_refuse _)
  | ok told =>
    have counted := counted_of_valid accepted
    apply upholds_bind (carries_dispatchAuxiliary isPlan)
    intro done
    cases done with
    | some done => exact upholds_pure fun _ known => known.1 rfl
    | none =>
      apply upholds_of (fun past => Untouched past ∧ _) (fun _ known => known.2 rfl)
      apply upholds_given
      intro bare
      apply carries_guarded
      cases target with
      | semantic ref => exact each ref rfl counted bare
      | _ => exact carries_dispatchNative counted bare nofun isPlan

/-! ### Semantic targets -/

theorem auxiliaryCall_keyboard (keyboard : goesToFocus action = true) :
    auxiliaryCall os action = none := by
  cases os with
  | macos => cases action <;> first | rfl | contradiction
  | _ => rfl

/-- Where an element has the focus, the second dispatch does what the first was to do. -/
theorem carries_redispatch (keyboard : goesToFocus action = true)
    (native : ∀ ref, target ≠ .semantic ref) (isPlan : Plan (keyboardPlan action)) :
    Carries Plan Untouched (fun _ => Accomplished Plan)
      (redispatch os deadlineAtMs build deliveryPid action target) := by
  apply carries_dispatchWith
  · intro plan planned
    have bare := @auxiliaryCall_keyboard os action keyboard
    cases target with
    | point point =>
      simp only [IsPlan, bare] at planned
      rwa [planned, pointerPlan_keyboard keyboard]
    | element element =>
      simp only [IsPlan, bare] at planned
      rwa [planned, elementPlan_keyboard keyboard]
    | semantic ref => exact absurd rfl (native ref)
    | none =>
      simp only [IsPlan, bare] at planned
  · exact fun ref same _ _ => absurd same (native ref)

/-- A deed and then nothing but a check. -/
theorem accomplished_step {α : Type} {op : DesktopOp} {x : NativeM α} (isPlan : Plan [op])
    (carries : Carries Plan Untouched (fun _ => work.Progress [op]) x) :
    Carries Plan Untouched (fun _ => Accomplished Plan) x :=
  accomplished isPlan (carries_whole (List.cons_ne_nil _ _) carries)

theorem lasting_accomplished : Lasting work.Idle (Accomplished Plan) :=
  lasting_exists fun plan => lasting_and (lasting_const (Plan plan)) (lasting_whole plan)

variable {ref : SemanticTargetRef}

theorem carries_macElement :
    Carries Plan Untouched (fun _ => Untouched) (macElement deadlineAtMs action ref) := by
  apply upholds_bind carries_before
  intro _
  apply upholds_bind (carries_look lasting_progress rfl)
  intro answer
  apply upholds_bind (carries_answer _ answer)
  intro found
  apply carries_guarded
  apply upholds_bind (carries_look lasting_progress rfl)
  intro answer
  apply upholds_bind (carries_answer _ answer)
  intro live
  apply carries_guarded
  exact upholds_pure fun _ => id

/-- The page action of an element scrolls it as the request says. -/
def Scrolls (action : Action) (scrolls : Option (String × UInt32)) : Prop :=
  ∀ name amount, scrolls = some (name, amount) →
    ∃ direction, action = .scroll direction amount ∧ macScrollActionName direction = some name

theorem carries_scrollAction (element : AxElement) :
    Carries Plan Untouched (fun scrolls past => Untouched past ∧ Scrolls action scrolls)
      (scrollAction element action) := by
  have no : ∀ past, Untouched past → Untouched past ∧ Scrolls action none :=
    fun past untouched => ⟨untouched, fun _ _ other => nomatch other⟩
  cases action with
  | scroll direction amount =>
    cases named : macScrollActionName direction with
    | none =>
      simp only [scrollAction, named]
      exact upholds_pure no
    | some name =>
      simp only [scrollAction, named]
      apply upholds_bind (carries_look lasting_progress rfl)
      intro answer
      cases answer with
      | error e => exact upholds_pure no
      | ok actions =>
        apply upholds_pure
        intro past untouched
        refine ⟨untouched, ?_⟩
        intro name' amount' same
        split at same
        · obtain ⟨rfl, rfl⟩ := Prod.mk.inj (Option.some.inj same)
          exact ⟨direction, rfl, named⟩
        · contradiction
  | _ => exact upholds_pure no

theorem carries_macDeed (element : AxElement) (other : goesToFocus action = false)
    (isPlan : ∀ call, macCall deadlineAtMs element action = some call → Plan [.deed call]) :
    Carries Plan Untouched (fun _ => Accomplished Plan) (macDeed deadlineAtMs element action) := by
  cases action with
  | invoke => exact accomplished_step (isPlan _ rfl) (carries_deed (isPlan _ rfl))
  | setValue value => exact accomplished_step (isPlan _ rfl) (carries_deed (isPlan _ rfl))
  | selectText start length => exact accomplished_step (isPlan _ rfl) (carries_deed (isPlan _ rfl))
  | performSecondaryAction name =>
    exact accomplished_step (isPlan _ rfl) (carries_deed (isPlan _ rfl))
  | typeText => contradiction
  | press => contradiction
  | paste => contradiction
  | hotkey => contradiction
  | scroll => contradiction
  | _ => exact carries_refuse _

theorem carries_macDispatchSemantic {again : Redispatch}
    (focused : goesToFocus action = true → ∀ deliveryPid element,
      Carries Plan Untouched (fun _ => Accomplished Plan) (again deliveryPid action (.element element)))
    (isPlan : ∀ element call, macCall deadlineAtMs element action = some call → Plan [.deed call]) :
    Carries Plan Untouched (fun _ => Accomplished Plan)
      (macDispatchSemantic deadlineAtMs again action ref) := by
  apply upholds_bind carries_macElement
  rintro ⟨element, native⟩
  apply upholds_bind (carries_scrollAction element)
  intro scrolls
  apply upholds_given
  intro named
  cases scrolls with
  | some scroll =>
    obtain ⟨direction, rfl, known⟩ := named _ _ rfl
    have planned : Plan [.deed (.macSemanticScroll element scroll.1 scroll.2 deadlineAtMs)] :=
      isPlan element _ (by simp only [macCall, known, Option.map_some])
    apply upholds_bind (accomplished_step planned (carries_deed planned))
    exact fun _ => upholds_pure fun _ => id
  | none =>
    apply upholds_ite
    · intro keyboard
      apply carries_guarded
      exact focused keyboard _ native
    · intro other
      apply upholds_bind (carries_macDeed element (Bool.eq_false_of_not_eq_true other) (isPlan element))
      intro _
      apply upholds_bind (carries_after lasting_accomplished)
      exact fun _ => upholds_pure fun _ => id

theorem carries_dispatchToFocus {again : Redispatch}
    (focused : Carries Plan Untouched (fun _ => Accomplished Plan) (again 0 action (.point ⟨0, 0⟩))) :
    Carries Plan Untouched (fun _ => Accomplished Plan)
      (dispatchToFocus deadlineAtMs again action ref) := by
  apply upholds_bind (carries_look lasting_progress rfl)
  intro answer
  apply upholds_bind (carries_answer _ answer)
  intro found
  exact carries_guarded focused

theorem carries_dispatchSemantic {again : Redispatch}
    (focused : goesToFocus action = true → ∀ deliveryPid resolved, (∀ ref, resolved ≠ .semantic ref) →
      Carries Plan Untouched (fun _ => Accomplished Plan) (again deliveryPid action resolved))
    (isPlan : ∀ op, IsSemanticStep os deadlineAtMs ref action op → Plan [op]) :
    Carries Plan Untouched (fun _ => Accomplished Plan)
      (dispatchSemantic os deadlineAtMs again action ref) := by
  have called : ∀ {call : SemanticCall}, Plan [.semantic call] →
      Carries Plan Untouched (fun _ => Accomplished Plan) (semantic call) :=
    fun planned => accomplished_step planned (carries_semantic planned)
  cases os with
  | macos =>
    apply carries_macDispatchSemantic
    · exact fun keyboard deliveryPid element => focused keyboard deliveryPid _ nofun
    · exact fun element call same => isPlan _ ⟨element, call, same, rfl⟩
  | linux =>
    apply upholds_bind (carries_look lasting_progress rfl)
    intro answer
    apply upholds_bind (carries_answer _ answer)
    intro _
    apply upholds_ite
    · exact fun keyboard => carries_dispatchToFocus (focused keyboard 0 _ nofun)
    · intro _
      cases action with
      | invoke => exact called (isPlan _ ⟨_, rfl, rfl⟩)
      | setValue value => exact called (isPlan _ ⟨_, rfl, rfl⟩)
      | _ => exact carries_refuse _
  | windows =>
    apply upholds_ite
    · exact fun keyboard => carries_dispatchToFocus (focused keyboard 0 _ nofun)
    · intro other
      cases action with
      | invoke => exact called (isPlan _ ⟨_, rfl, rfl⟩)
      | setValue value => exact called (isPlan _ ⟨_, rfl, rfl⟩)
      | scroll => exact absurd rfl other
      | _ => exact carries_refuse _
  | other => exact carries_refuse _

/-! ### Every dispatch -/

theorem carries_dispatch :
    Carries (IsPlan os deadlineAtMs action target) Untouched
      (fun _ => Accomplished (IsPlan os deadlineAtMs action target))
      (dispatch os deadlineAtMs build deliveryPid action target verification) := by
  apply carries_dispatchWith fun _ => id
  rintro ref rfl counted bare
  apply carries_dispatchSemantic
  · intro keyboard deliveryPid resolved native
    apply carries_redispatch keyboard native
    simp only [IsPlan, bare]
    exact .inr ⟨keyboard, trivial⟩
  · intro op step
    simp only [IsPlan, bare]
    exact .inl ⟨op, step, rfl⟩

end

/-! ### Two presses of a key -/

/-- A desktop that can press. -/
def pressingDesktop : (op : DesktopOp) → Desktop.Ans op
  | .input _ => .ok ()
  | op => (focusedDesktop op 0).1

def pressTwice : NativeM DispatchReceipt :=
  dispatch .linux 1000 (benchBuild .interactive) 0 (.press "a" 2 none) (.semantic benchTarget) .none

theorem pressTwice_run : ∃ past, Steps pressTwice.run past (.ret (.ok ⟨"praefectus-linux", []⟩)) := by
  have told (op : DesktopOp) : (⟨op, pressingDesktop op⟩ : Event Desktop).ans = pressingDesktop op := rfl
  obtain ⟨past, _, run⟩ := @steps_answered Desktop _ pressingDesktop
    (fun e => e.ans = pressingDesktop e.op) told pressTwice.run
  have result : pressTwice.run.answered pressingDesktop = .ok ⟨"praefectus-linux", []⟩ := by
    decide +kernel
  exact ⟨past, result ▸ run⟩

/-! ### Every history -/

section

variable {os : TargetOs} {deadlineAtMs : Int64} {build : Build} {action : Action}
  {target : ResolvedTarget} {verification : VerificationPolicy} {deliveryPid : Int32}
  {past before after : Past} {e : Event Desktop}

/-- **The plan**: whatever a dispatch has done at any time is the beginning of what its action and
its target ask for, and it goes on only where all that has succeeded. -/
theorem dispatch_keeps_plan {p : Prog Desktop (Except Fault DispatchReceipt)}
    (run : Steps (dispatch os deadlineAtMs build deliveryPid action target verification).run
      (before ++ e :: after) p) (step : isStep e.op = true) :
    ∃ plan, IsPlan os deadlineAtMs action target plan ∧
      (work.taken (before ++ [e])).map Event.op <+: plan ∧
      ∀ e' ∈ work.taken before, worked e' = true :=
  next_prefix (upholds_asks carries_dispatch progress_nil run) step

/-- **What is said of the effect**: a dispatch succeeds only if all of a plan was done, which is
more than nothing. An error that does not leave the effect open was returned before anything was
done, or it is the error of the only call. -/
theorem dispatch_tells {result : Except Fault DispatchReceipt}
    (run : Steps (dispatch os deadlineAtMs build deliveryPid action target verification).run past
      (.ret result)) :
    (∀ receipt, result = .ok receipt → ∃ plan, IsPlan os deadlineAtMs action target plan ∧
      plan ≠ [] ∧ (work.taken past).map Event.op = plan ∧ ∀ e ∈ work.taken past, worked e = true) ∧
    ∀ error, result = .error (.error error) → error.effect ≠ .unknown →
      work.taken past = [] ∨ ∃ e, work.taken past = [e] ∧ Refused error e := by
  have verdict := upholds_run carries_dispatch progress_nil run
  constructor
  · rintro receipt rfl
    obtain ⟨plan, isPlan, nonempty, progress⟩ := verdict
    exact ⟨plan, isPlan, nonempty, progress.same, progress.worked⟩
  · rintro error rfl
    exact verdict error rfl

theorem dispatch_tells_press : ∃ past, Steps pressTwice.run past (.ret (.ok ⟨"praefectus-linux", []⟩)) ∧
    ∃ plan, IsPlan .linux 1000 (.press "a" 2 none) (.semantic benchTarget) plan ∧
      plan ≠ [] ∧ (work.taken past).map Event.op = plan ∧
      ∀ e ∈ work.taken past, worked e = true := by
  obtain ⟨past, run⟩ := pressTwice_run
  exact ⟨past, run, (dispatch_tells run).1 _ rfl⟩

theorem dispatch_keeps_plan_press : ∃ before e after p,
    Steps pressTwice.run (before ++ e :: after) p ∧ isStep e.op = true ∧
    ∃ plan, IsPlan .linux 1000 (.press "a" 2 none) (.semantic benchTarget) plan ∧
      (work.taken (before ++ [e])).map Event.op <+: plan ∧
      ∀ e' ∈ work.taken before, worked e' = true := by
  obtain ⟨past, run⟩ := pressTwice_run
  obtain ⟨plan, _, nonempty, progress⟩ := upholds_run carries_dispatch progress_nil run
  obtain ⟨e, member⟩ : ∃ e, e ∈ work.taken past := by
    apply List.exists_mem_of_ne_nil
    rintro none
    rw [← progress.same, none] at nonempty
    exact nonempty rfl
  obtain ⟨member, step⟩ := List.mem_filter.mp member
  obtain ⟨before, after, rfl⟩ := List.append_of_mem member
  exact ⟨before, e, after, _, run, step, dispatch_keeps_plan run step⟩

end

end Praefectus.Native
