import Praefectus.Native.Executor
import Praefectus.Program.Verdicts
import Praefectus.Program.Play

/-!
# Text in chunks

A text goes to the backend in chunks, behind a call that clears the field and before one that
presses return. The calls of a dispatch are read off its history, each with its success. What
is left of the text in hand never gets lost between the chunks, and what the error says of the
effect depends on whether there were calls.
-/

namespace Prog

variable {I : Interface} {α β ε Φ : Type} {m : Monitor I Φ} {err : ε → Φ → Prop} {φ : Φ}

/-- A loop with an accumulator, by an invariant of the items done and those to come. -/
theorem judged_foldl {f : β → α → ExceptT ε (Prog I) β} (R : List α → β → Φ → Prop)
    {done items : List α} {b : β} (initial : R done b φ)
    (each : ∀ done' b item rest φ, done ++ items = done' ++ item :: rest → R done' b φ →
      Judged m (R (done' ++ [item])) err (f b item) φ) :
    Judged m (R (done ++ items)) err (items.foldlM f b) φ := by
  induction items generalizing done b φ with
  | nil =>
    refine judged_pure ?_
    simpa only [List.append_nil] using initial
  | cons item items ih =>
    rw [List.foldlM_cons]
    refine judged_bind (judged_mono (each done b item items φ rfl initial) ?_ fun _ _ => id)
    intro b' φ' holds
    have rest := ih holds fun done' b item rest φ whole =>
      each done' b item rest φ (by rw [← whole, List.append_assoc, List.singleton_append])
    simpa only [List.append_assoc, List.singleton_append] using rest

end Prog

namespace Praefectus.Native

open Prog

/-! ### Calls -/

/-- A call of the backend to type, and whether it succeeded. -/
structure TypeCall where
  text : String
  clear : Bool
  pressReturn : Bool
  delayMs : Option UInt64
  succeeded : Bool
  deriving DecidableEq

def clearCall (succeeded : Bool) : TypeCall := ⟨"", true, false, none, succeeded⟩

def returnCall (succeeded : Bool) : TypeCall := ⟨"", false, true, none, succeeded⟩

def typeCall? : Event Desktop → Option TypeCall
  | ⟨.input (.typeText text clear pressReturn delayMs), .ok _⟩ =>
    some ⟨text, clear, pressReturn, delayMs, true⟩
  | ⟨.input (.typeText text clear pressReturn delayMs), .error _⟩ =>
    some ⟨text, clear, pressReturn, delayMs, false⟩
  | _ => none

/-- The characters that the calls send. -/
def sent (calls : List TypeCall) : List Char := calls.flatMap fun call => call.text.toList

theorem sent_append (first second : List TypeCall) : sent (first ++ second) = sent first ++ sent second :=
  List.flatMap_append

/-- A monitor that collects the calls. -/
def typist : Monitor Desktop (List TypeCall) where
  learn calls e := calls ++ (typeCall? e).toList
  allows _ _ := True

theorem after_typist (calls : List TypeCall) (trace : List (Event Desktop)) :
    typist.after calls trace = calls ++ trace.filterMap typeCall? := by
  induction trace generalizing calls with
  | nil => exact (List.append_nil calls).symm
  | cons e trace ih =>
    have first : typist.after calls (e :: trace) = typist.after (typist.learn calls e) trace := rfl
    rw [first, ih, List.filterMap_cons]
    cases called : typeCall? e <;> simp [typist, called]

/-! ### Specification -/

/-- A piece of the text: at most 64 characters, and one at a time with a delay. -/
structure IsChunk (delayMs : Option UInt64) (call : TypeCall) : Prop where
  keys : call.clear = false ∧ call.pressReturn = false
  delay : call.delayMs = delayMs
  nonempty : call.text ≠ ""
  short : call.text.length ≤ 64
  single : delayMs.isSome = true → call.text.length = 1

/-- A call that clears, if there is to be one, then chunks of the text, then at most one
return. -/
structure IsTyping (text : String) (clear : Bool) (delayMs : Option UInt64)
    (clears chunks returns : List TypeCall) : Prop where
  first : clear = true ∧ (∃ succeeded, clears = [clearCall succeeded]) ∨ clear = false ∧ clears = []
  pieces : ∀ call ∈ chunks, IsChunk delayMs call
  joined : sent chunks <+: text.toList
  last : returns = [] ∨ ∃ succeeded, returns = [returnCall succeeded]

def typingInterrupted : DispatchError := .ambiguous "type action interrupted after partial dispatch"

def AllSucceeded (calls : List TypeCall) : Prop := ∀ call ∈ calls, call.succeeded = true

/-- How a dispatch of text ends that made some calls, and then perhaps the one of return. -/
structure TypingEnds (pressReturn : Bool) (whole : Prop) (calls returns : List TypeCall)
    (result : Except DispatchError Unit) : Prop where
  returned_iff : returns ≠ [] ↔
    pressReturn = true ∧ whole ∧ AllSucceeded calls ∧ result ≠ .error typingInterrupted
  ok : result = .ok () → whole ∧ AllSucceeded (calls ++ returns)
  failed_iff : result = .error .ambiguousDispatch ↔ ¬ AllSucceeded (calls ++ returns)
  interrupted : ∀ e, result = .error e → e ≠ .ambiguousDispatch →
    (e = .interrupted .cancelledBeforeEffect ∨ e = .interrupted .expiredBeforeEffect) ∧
        calls ++ returns = [] ∨
      e = typingInterrupted ∧ calls ++ returns ≠ []

/-- The calls of a dispatch of text, and its result. -/
def Typed (text : String) (clear pressReturn : Bool) (delayMs : Option UInt64)
    (result : Except DispatchError Unit) (calls : List TypeCall) : Prop :=
  ∃ clears chunks returns, calls = clears ++ chunks ++ returns ∧
    IsTyping text clear delayMs clears chunks returns ∧
    TypingEnds pressReturn (sent chunks = text.toList) (clears ++ chunks) returns result

/-! ### Calls under the monitor -/

section

variable (deadlineAtMs : Int64) (calls : List TypeCall)

/-- The checks make no calls. -/
theorem judged_isInterrupted :
    Judged typist (fun _ calls' => calls' = calls) (fun _ _ => False)
      (isInterrupted boundary deadlineAtMs) calls := by
  refine judged_bind (judged_ask trivial fun cancelled => ?_)
  have same : typist.learn calls ⟨.isCancelled, cancelled⟩ = calls := List.append_nil calls
  rw [same]
  cases cancelled with
  | true => exact judged_pure rfl
  | false =>
    refine judged_bind (judged_ask trivial fun nowMs => ?_)
    exact judged_pure (List.append_nil calls)

/-- What the check says of the effect. -/
def TellsEffect (effectStarted : Bool) (e : DispatchError) : Prop :=
  if effectStarted then e = typingInterrupted
  else e = .interrupted .cancelledBeforeEffect ∨ e = .interrupted .expiredBeforeEffect

theorem judged_checkTyping (effectStarted : Bool) :
    Judged typist (fun _ calls' => calls' = calls)
      (fun e calls' => calls' = calls ∧ TellsEffect effectStarted e)
      (checkTyping boundary deadlineAtMs effectStarted) calls := by
  refine judged_bind (judged_mono (judged_isInterrupted deadlineAtMs calls) ?_ nofun)
  rintro stop _ rfl
  cases stop with
  | false => exact judged_pure rfl
  | true =>
    cases effectStarted with
    | true => exact judged_throw ⟨rfl, rfl⟩
    | false =>
      refine judged_bind (judged_ask trivial fun cancelled => ?_)
      cases cancelled with
      | true => exact judged_throw ⟨List.append_nil _, .inl rfl⟩
      | false => exact judged_throw ⟨List.append_nil _, .inr rfl⟩

theorem judged_sendText (text : String) (clear pressReturn : Bool) (delayMs : Option UInt64) :
    Judged typist (fun _ calls' => calls' = calls ++ [⟨text, clear, pressReturn, delayMs, true⟩])
      (fun e calls' => e = .ambiguousDispatch ∧
        calls' = calls ++ [⟨text, clear, pressReturn, delayMs, false⟩])
      (sendText sendTypeText text clear pressReturn delayMs) calls := by
  refine judged_bind (judged_ask trivial fun answer => ?_)
  cases answer with
  | ok => exact judged_pure rfl
  | error => exact judged_throw ⟨rfl, rfl⟩

end

/-! ### Chunks -/

theorem chunkSize_pos (delayMs : Option UInt64) : 0 < chunkSize delayMs := by
  cases delayMs <;> simp [chunkSize]

theorem isChunk_of_length {delayMs : Option UInt64} {piece : String} (nonempty : piece ≠ "")
    (fits : piece.length ≤ chunkSize delayMs) (succeeded : Bool) :
    IsChunk delayMs ⟨piece, false, false, delayMs, succeeded⟩ where
  keys := ⟨rfl, rfl⟩
  delay := rfl
  nonempty := nonempty
  short := by
    have most : chunkSize delayMs ≤ 64 := by cases delayMs <;> simp [chunkSize]
    exact fits.trans most
  single delayed := by
    have one : chunkSize delayMs = 1 := if_pos delayed
    have some : piece.length ≠ 0 := fun none => nonempty (String.length_eq_zero_iff.mp none)
    show piece.length = 1
    omega

def clearsDone (clear : Bool) : List TypeCall := if clear then [clearCall true] else []

/-- The calls so far, while some of the text that was taken is still in hand. -/
structure Holding (clear : Bool) (delayMs : Option UInt64) (done : List Char) (chunk : String)
    (effectStarted : Bool) (chunks calls : List TypeCall) : Prop where
  calls_eq : calls = clearsDone clear ++ chunks
  pieces : ∀ call ∈ chunks, IsChunk delayMs call
  succeeded : AllSucceeded calls
  taken : sent chunks ++ chunk.toList = done
  started : effectStarted = !calls.isEmpty

variable {text chunk : String} {clear pressReturn effectStarted : Bool} {delayMs : Option UInt64}
  {done : List Char} {chunks calls : List TypeCall}

theorem isTyping_held (held : Holding clear delayMs done chunk effectStarted chunks calls)
    (part : sent chunks <+: text.toList) {returns : List TypeCall}
    (last : returns = [] ∨ ∃ succeeded, returns = [returnCall succeeded]) :
    IsTyping text clear delayMs (clearsDone clear) chunks returns where
  first := by
    cases clear with
    | true => exact .inl ⟨rfl, true, rfl⟩
    | false => exact .inr ⟨rfl, rfl⟩
  pieces := held.pieces
  joined := part
  last := last

/-- A chunk that is in hand is sent. -/
theorem holding_sent (held : Holding clear delayMs done chunk effectStarted chunks calls)
    (nonempty : chunk ≠ "") (fits : chunk.length ≤ chunkSize delayMs) :
    Holding clear delayMs done "" true (chunks ++ [⟨chunk, false, false, delayMs, true⟩])
      (calls ++ [⟨chunk, false, false, delayMs, true⟩]) where
  calls_eq := by rw [held.calls_eq, List.append_assoc]
  pieces := List.forall_mem_append.mpr
    ⟨held.pieces, List.forall_mem_singleton.mpr (isChunk_of_length nonempty fits true)⟩
  succeeded := List.forall_mem_append.mpr ⟨held.succeeded, List.forall_mem_singleton.mpr rfl⟩
  taken := by
    rw [sent_append, List.append_assoc, ← held.taken]
    simp [sent]
  started := by simp

theorem holding_push (held : Holding clear delayMs done chunk effectStarted chunks calls)
    (character : Char) :
    Holding clear delayMs (done ++ [character]) (chunk.push character) effectStarted chunks calls :=
  { held with taken := by rw [String.toList_push, ← held.taken, List.append_assoc] }

/-! ### Endings -/

/-- A check that stops the dispatch says whether there were calls. -/
theorem typed_interrupted (nonempty : text ≠ "")
    (held : Holding clear delayMs done chunk effectStarted chunks calls)
    (part : sent chunks <+: text.toList) {e : DispatchError} (told : TellsEffect effectStarted e) :
    Typed text clear pressReturn delayMs (.error e) calls := by
  have whole : calls = clearsDone clear ++ chunks ++ [] := by rw [List.append_nil, held.calls_eq]
  have succeeded : AllSucceeded (clearsDone clear ++ chunks) := held.calls_eq ▸ held.succeeded
  refine ⟨clearsDone clear, chunks, [], whole, isTyping_held held part (.inl rfl), ?_⟩
  rw [← held.calls_eq] at succeeded ⊢
  rw [held.started] at told
  cases none : calls.isEmpty with
  | true =>
    rw [none] at told
    have early : e = .interrupted .cancelledBeforeEffect ∨ e = .interrupted .expiredBeforeEffect := told
    obtain rfl := List.isEmpty_iff.mp none
    obtain ⟨_, rfl⟩ := List.append_eq_nil_iff.mp held.calls_eq.symm
    -- Nothing was sent, and the text is not empty.
    have notWhole : ¬ sent [] = text.toList := fun same =>
      nonempty (String.toList_eq_nil_iff.mp same.symm)
    constructor
    · simp [notWhole]
    · nofun
    · rcases early with rfl | rfl <;> simp [AllSucceeded, DispatchError.interrupted,
        DispatchError.ambiguousDispatch, DispatchError.ambiguous]
    · rintro _ ⟨rfl⟩ _
      exact .inl ⟨early, rfl⟩
  | false =>
    rw [none] at told
    obtain rfl : e = typingInterrupted := told
    have some : calls ≠ [] := fun same => by simp [same] at none
    constructor
    · simp
    · nofun
    · rw [List.append_nil]
      exact ⟨fun same => absurd same (by decide), fun failed => absurd succeeded failed⟩
    · rintro _ ⟨rfl⟩ _
      exact .inr ⟨rfl, by rwa [List.append_nil]⟩

/-- A call that fails is the last one. -/
theorem typed_failed {clears : List TypeCall}
    (typing : IsTyping text clear delayMs clears chunks []) (failed : ¬ AllSucceeded (clears ++ chunks)) :
    Typed text clear pressReturn delayMs (.error .ambiguousDispatch) (clears ++ chunks) := by
  refine ⟨clears, chunks, [], (List.append_nil _).symm, typing, ?_⟩
  constructor
  · simp [failed]
  · nofun
  · rw [List.append_nil]
    exact ⟨fun _ => failed, fun _ => rfl⟩
  · rintro _ ⟨rfl⟩ other
    exact absurd rfl other

theorem not_allSucceeded_concat (calls : List TypeCall) {call : TypeCall}
    (failed : call.succeeded = false) : ¬ AllSucceeded (calls ++ [call]) := by
  intro all
  have last := all call (List.mem_append_right calls List.mem_cons_self)
  rw [failed] at last
  contradiction

/-- A dispatch that is not stopped presses return if it is to. -/
theorem typed_whole (held : Holding clear delayMs text.toList "" effectStarted chunks calls) :
    (pressReturn = false → Typed text clear pressReturn delayMs (.ok ()) calls) ∧
    (pressReturn = true →
      Typed text clear pressReturn delayMs (.ok ()) (calls ++ [returnCall true]) ∧
      Typed text clear pressReturn delayMs (.error .ambiguousDispatch) (calls ++ [returnCall false])) := by
  have whole : sent chunks = text.toList := by simpa using held.taken
  have part : sent chunks <+: text.toList := whole ▸ List.prefix_refl _
  have succeeded : AllSucceeded (clearsDone clear ++ chunks) := held.calls_eq ▸ held.succeeded
  have pressed : AllSucceeded (clearsDone clear ++ chunks ++ [returnCall true]) :=
    List.forall_mem_append.mpr ⟨succeeded, List.forall_mem_singleton.mpr rfl⟩
  rw [held.calls_eq]
  refine ⟨?_, ?_⟩
  · rintro rfl
    refine ⟨_, chunks, [], (List.append_nil _).symm, isTyping_held held part (.inl rfl), ?_⟩
    constructor
    · simp
    · rw [List.append_nil]
      exact fun _ => ⟨whole, succeeded⟩
    · rw [List.append_nil]
      exact ⟨nofun, fun failed => absurd succeeded failed⟩
    · nofun
  · rintro rfl
    refine ⟨⟨_, chunks, [returnCall true], rfl, isTyping_held held part (.inr ⟨_, rfl⟩), ?_⟩,
      ⟨_, chunks, [returnCall false], rfl, isTyping_held held part (.inr ⟨_, rfl⟩), ?_⟩⟩
    · constructor
      · simp [whole, succeeded]
      · exact fun _ => ⟨whole, pressed⟩
      · exact ⟨nofun, fun failed => absurd pressed failed⟩
      · nofun
    · have other : DispatchError.ambiguousDispatch ≠ typingInterrupted := by decide
      have refused : (returnCall false).succeeded = false := rfl
      have failed := not_allSucceeded_concat (clearsDone clear ++ chunks) refused
      constructor
      · simp [whole, succeeded, other]
      · nofun
      · exact ⟨fun _ => failed, fun _ => rfl⟩
      · rintro _ ⟨rfl⟩ same
        exact absurd rfl same

/-! ### The dispatch -/

/-- A chunk whose call fails is part of the text all the same. -/
theorem typed_refused (held : Holding clear delayMs done chunk effectStarted chunks calls)
    (part : done <+: text.toList) (nonempty : chunk ≠ "") (fits : chunk.length ≤ chunkSize delayMs) :
    Typed text clear pressReturn delayMs (.error .ambiguousDispatch)
      (calls ++ [⟨chunk, false, false, delayMs, false⟩]) := by
  have typing := isTyping_held held
    ((List.prefix_append _ _).trans (held.taken ▸ part)) (.inl rfl)
  rw [held.calls_eq, List.append_assoc]
  refine typed_failed { typing with pieces := ?_, joined := ?_ } ?_
  · exact List.forall_mem_append.mpr
      ⟨held.pieces, List.forall_mem_singleton.mpr (isChunk_of_length nonempty fits false)⟩
  · rw [sent_append]
    simpa [sent, held.taken] using held.taken ▸ part
  · rw [← List.append_assoc]
    exact not_allSucceeded_concat _ rfl

variable {deadlineAtMs : Int64}

/-- One character: the text in hand stays short of a whole chunk. -/
theorem judged_typeCharacter (nonempty : text ≠ "")
    (held : Holding clear delayMs done chunk effectStarted chunks calls)
    (short : chunk.length < chunkSize delayMs) {character : Char}
    (part : done ++ [character] <+: text.toList) :
    Judged typist
      (fun next calls' => ∃ chunks', Holding clear delayMs (done ++ [character]) next.1 next.2 chunks' calls' ∧
        next.1.length < chunkSize delayMs)
      (fun e calls' => Typed text clear pressReturn delayMs (.error e) calls')
      (typeCharacter boundary deadlineAtMs sendTypeText delayMs (chunk, effectStarted) character)
      calls := by
  have earlier : done <+: text.toList := (List.prefix_append _ _).trans part
  have sentPart : sent chunks <+: text.toList :=
    (List.prefix_append _ _).trans (held.taken ▸ earlier)
  refine judged_bind (judged_mono (judged_checkTyping deadlineAtMs calls effectStarted) ?_ ?_)
  · rintro _ _ rfl
    have pushed := holding_push held character
    have some : chunk.push character ≠ "" := by
      intro none
      have := congrArg String.length none
      simp at this
    have length : (chunk.push character).length = chunk.length + 1 := String.length_push character
    by_cases full : (chunk.push character).length = chunkSize delayMs
    · simp only [full, if_true]
      refine judged_bind (judged_mono (judged_sendText _ _ false false delayMs) ?_ ?_)
      · rintro _ _ rfl
        exact judged_pure ⟨_, holding_sent pushed some (Nat.le_of_eq full), chunkSize_pos delayMs⟩
      · rintro _ _ ⟨rfl, rfl⟩
        exact typed_refused pushed part some (Nat.le_of_eq full)
    · simp only [full, if_false]
      exact judged_pure ⟨chunks, pushed, by show (chunk.push character).length < _; omega⟩
  · rintro e _ ⟨rfl, told⟩
    exact typed_interrupted nonempty held sentPart told

/-- The field is cleared before anything else. -/
theorem judged_clear :
    Judged typist (fun _ calls => Holding clear delayMs [] "" clear [] calls)
      (fun e calls => Typed text clear pressReturn delayMs (.error e) calls)
      (Prog.when (clear = true) (sendText sendTypeText "" true false none)) [] := by
  refine judged_when ?_ ?_
  · rintro rfl
    refine judged_mono (judged_sendText [] "" true false none) ?_ ?_
    · rintro _ _ rfl
      have succeeded : AllSucceeded [clearCall true] := List.forall_mem_singleton.mpr rfl
      exact ⟨rfl, List.forall_mem_nil _, succeeded, rfl, rfl⟩
    · rintro _ _ ⟨rfl, rfl⟩
      have typing : IsTyping text true delayMs [clearCall false] [] [] :=
        ⟨.inl ⟨rfl, false, rfl⟩, List.forall_mem_nil _, List.nil_prefix, .inl rfl⟩
      have refused : (clearCall false).succeeded = false := rfl
      have failed := @typed_failed text true pressReturn delayMs [] [clearCall false] typing
        (not_allSucceeded_concat [] refused)
      exact failed
  · intro keep
    rw [Bool.not_eq_true] at keep
    subst keep
    exact ⟨rfl, List.forall_mem_nil _, List.forall_mem_nil _, rfl, rfl⟩

/-- The text still in hand after the last character is sent as well. -/
theorem judged_rest (held : Holding clear delayMs text.toList chunk effectStarted chunks calls)
    (short : chunk.length < chunkSize delayMs) :
    Judged typist
      (fun _ calls' => ∃ chunks', Holding clear delayMs text.toList "" (effectStarted || chunk ≠ "")
        chunks' calls')
      (fun e calls' => Typed text clear pressReturn delayMs (.error e) calls')
      (Prog.when (chunk ≠ "") (sendText sendTypeText chunk false false delayMs)) calls := by
  refine judged_when ?_ ?_
  · intro some
    refine judged_mono (judged_sendText _ _ false false delayMs) ?_ ?_
    · rintro _ _ rfl
      have started : (effectStarted || decide (chunk ≠ "")) = true := by simp [some]
      rw [started]
      exact ⟨_, holding_sent held some (Nat.le_of_lt short)⟩
    · rintro _ _ ⟨rfl, rfl⟩
      exact typed_refused held (List.prefix_refl _) some (Nat.le_of_lt short)
  · intro none
    obtain rfl : chunk = "" := not_not.mp none
    have same : (effectStarted || decide (("" : String) ≠ "")) = effectStarted := by simp
    rw [same]
    exact ⟨chunks, held⟩

theorem judged_dispatchTypeText (nonempty : text ≠ "") (fits : text.utf8ByteSize ≤ 16 * 1024)
    (soon : ∀ delay, delayMs = some delay → delay ≤ 1000) :
    Judged typist (fun _ calls => Typed text clear pressReturn delayMs (.ok ()) calls)
      (fun e calls => Typed text clear pressReturn delayMs (.error e) calls)
      (dispatchTypeText boundary deadlineAtMs sendTypeText text clear pressReturn delayMs) [] := by
  have quick : delayMs.any (· > 1000) = false := by
    cases delayMs with
    | none => rfl
    | some delay => simpa using soon delay rfl
  have accepted : ¬ (text = "" ∨ text.utf8ByteSize > 16 * 1024 ∨ delayMs.any (· > 1000) = true) := by
    rw [quick]
    rintro (empty | long | late)
    · exact nonempty empty
    · omega
    · contradiction
  unfold dispatchTypeText
  rw [if_neg accepted]
  refine judged_bind (judged_mono judged_clear ?_ fun _ _ => id)
  intro _ calls held
  refine judged_bind (judged_mono (@judged_foldl _ _ _ _ _ _ _ _ _ (fun done chunk calls => ∃ chunks,
    Holding clear delayMs done chunk.1 chunk.2 chunks calls ∧ chunk.1.length < chunkSize delayMs)
    [] _ _ ⟨[], held, chunkSize_pos delayMs⟩ ?_) ?_ fun _ _ => id)
  · rintro done ⟨chunk, effectStarted⟩ character rest calls whole ⟨chunks, held, short⟩
    refine judged_typeCharacter nonempty held short ?_
    rw [List.nil_append] at whole
    rw [whole]
    exact ⟨rest, by simp⟩
  · rintro ⟨chunk, effectStarted⟩ calls ⟨chunks, held, short⟩
    refine judged_bind (judged_mono (judged_rest held short) ?_ fun _ _ => id)
    rintro _ calls ⟨chunks, held⟩
    have whole : sent chunks = text.toList := by simpa using held.taken
    refine judged_bind (judged_mono (judged_checkTyping _ _ _) ?_ ?_)
    · rintro _ _ rfl
      obtain ⟨silent, pressed⟩ := @typed_whole _ _ pressReturn _ _ _ _ held
      refine judged_when ?_ fun no => silent (Bool.not_eq_true _ ▸ no)
      intro yes
      refine judged_mono (judged_sendText _ "" false true none) ?_ ?_
      · rintro _ _ rfl
        exact (pressed yes).1
      · rintro _ _ ⟨rfl, rfl⟩
        exact (pressed yes).2
    · rintro e _ ⟨rfl, told⟩
      exact typed_interrupted nonempty held (whole ▸ List.prefix_refl _) told

/-- Whatever the backend answers and whenever the dispatch is stopped, the calls are those of
the text, and the result tells how far they got. -/
theorem dispatchTypeText_calls (nonempty : text ≠ "") (fits : text.utf8ByteSize ≤ 16 * 1024)
    (soon : ∀ delay, delayMs = some delay → delay ≤ 1000) {trace : List (Event Desktop)}
    {result : Except DispatchError Unit}
    (run : Steps (dispatchTypeText boundary deadlineAtMs sendTypeText text clear pressReturn delayMs).run
      trace (.ret result)) :
    Typed text clear pressReturn delayMs result (trace.filterMap typeCall?) := by
  have ended := judged_run (judged_dispatchTypeText nonempty fits soon) run
  rw [after_typist, List.nil_append] at ended
  cases result <;> exact ended

/-! ### Stopped before the return -/

/-- The calls with a return exactly where the whole text was sent. -/
def TypedExactly (text : String) (clear pressReturn : Bool) (delayMs : Option UInt64)
    (calls : List TypeCall) : Prop :=
  ∃ clears chunks returns, calls = clears ++ chunks ++ returns ∧
    IsTyping text clear delayMs clears chunks returns ∧
    (returns ≠ [] ↔ pressReturn = true ∧ sent chunks = text.toList)

/-- A dispatch that is cancelled once its text was sent. -/
def stoppedTrace : List (Event Desktop) :=
  [⟨.isCancelled, false⟩, ⟨.now, 0⟩, ⟨.input (.typeText "a" false false none), .ok ()⟩,
    ⟨.isCancelled, true⟩]

theorem steps_stopped : Steps (dispatchTypeText boundary 10 sendTypeText "a" false true none).run
    stoppedTrace (.ret (.error typingInterrupted)) :=
  .step _ (.step _ (.step _ (.step _ (.refl _))))

theorem dispatchTypeText_calls_stopped :
    ∃ trace, (∃ result, Steps (dispatchTypeText boundary 10 sendTypeText "a" false true none).run
      trace (.ret result)) ∧ ¬ TypedExactly "a" false true none (trace.filterMap typeCall?) := by
  refine ⟨stoppedTrace, ⟨_, steps_stopped⟩, ?_⟩
  rintro ⟨clears, chunks, returns, called, typing, returned⟩
  have called : [⟨"a", false, false, none, true⟩] = clears ++ chunks ++ returns := called
  obtain rfl : clears = [] := by
    rcases typing.first with ⟨same, _⟩ | ⟨_, none⟩
    · contradiction
    · exact none
  rcases typing.last with rfl | ⟨succeeded, rfl⟩
  · -- All of the text was sent, without a return.
    rw [List.append_nil, List.nil_append] at called
    have whole : sent chunks = ("a" : String).toList := by rw [← called]; rfl
    exact returned.mpr ⟨rfl, whole⟩ rfl
  · have last := congrArg List.getLast? called
    rw [List.getLast?_concat] at last
    have text : ("a" : String) = "" := congrArg TypeCall.text (Option.some.inj last)
    exact absurd text (by decide)

/-- A desktop that types, and cancels the dispatch after the third call. -/
def cancellingDesktop (op : DesktopOp) (typed : Nat) : op.Answer × Nat :=
  match op with
  | .isCancelled => (3 ≤ typed, typed)
  | .now => (0, typed)
  | .input _ => (.ok (), typed + 1)
  | .directories => (fun _ => true, typed)
  | .globalInputAllowed => (true, typed)
  | .connect => (.ok (), typed)
  | .sleep _ => ((), typed)
  | .listScreens | .screenContentHash | .status _ | .actions _ => (.error ⟨⟩, typed)
  | .focusedTarget _ | .capabilities | .loadCoordinateObservation _ | .resolveRecordedElement ..
  | .macLiveActionability .. => (.error .conflict, typed)
  | .deed _ | .semantic _ => (.error .ambiguousDispatch, typed)
  | .copy _ => (.error .failed, typed)

def isInterruption (result : Except DispatchError Unit) : Bool :=
  result = .error typingInterrupted

/-- With a delay every character is a chunk. The field is cleared, two of them are typed, and
neither the third nor the return. -/
theorem dispatchTypeText_calls_cancelled : ∃ trace : List (Event Desktop),
    Steps (dispatchTypeText boundary 10 sendTypeText "Hi!" true true (some 20)).run trace
      (.ret (.error typingInterrupted)) ∧
    trace.filterMap typeCall? = [clearCall true, ⟨"H", false, false, some 20, true⟩,
      ⟨"i", false, false, some 20, true⟩] ∧
    Typed "Hi!" true true (some 20) (.error typingInterrupted) (trace.filterMap typeCall?) := by
  have played :
      (play cancellingDesktop 40
        (dispatchTypeText boundary 10 sendTypeText "Hi!" true true (some 20)).run 0).2.1.returned?.any
          isInterruption = true ∧
      (play cancellingDesktop 40
        (dispatchTypeText boundary 10 sendTypeText "Hi!" true true (some 20)).run 0).1.filterMap
          typeCall? = [clearCall true, ⟨"H", false, false, some 20, true⟩,
            ⟨"i", false, false, some 20, true⟩] := by
    decide +kernel
  obtain ⟨interrupted, calls⟩ := played
  obtain ⟨result, same, run⟩ := steps_returned interrupted
  obtain rfl : result = .error typingInterrupted := of_decide_eq_true same
  have soon : ∀ delay : UInt64, some 20 = some delay → delay ≤ 1000 := by
    rintro delay ⟨rfl⟩
    decide
  exact ⟨_, run, calls, dispatchTypeText_calls (by decide) (by decide) soon run⟩

end Praefectus.Native
