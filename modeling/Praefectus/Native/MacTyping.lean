import Praefectus.Native.Dispatch
import Praefectus.Program.Play
import Praefectus.Program.Verdicts

/-!
# Typing on macOS

Every character is looked up in a table of key codes and posted as a press and a release of
its key. Characters without a key code and posts that fail are passed over.
-/

namespace Praefectus.Mac

open Prog

/-! ### Keys -/

/-- The key codes of characters, none of them shifted. -/
def macKeyCodes : List (Char × UInt16) := [
  ('a', 0x00), ('s', 0x01), ('d', 0x02), ('f', 0x03), ('h', 0x04), ('g', 0x05), ('z', 0x06),
  ('x', 0x07), ('c', 0x08), ('v', 0x09), ('b', 0x0B), ('q', 0x0C), ('w', 0x0D), ('e', 0x0E),
  ('r', 0x0F), ('y', 0x10), ('t', 0x11), ('1', 0x12), ('2', 0x13), ('3', 0x14), ('4', 0x15),
  ('6', 0x16), ('5', 0x17), ('=', 0x18), ('9', 0x19), ('7', 0x1A), ('-', 0x1B), ('8', 0x1C),
  ('0', 0x1D), (']', 0x1E), ('o', 0x1F), ('u', 0x20), ('[', 0x21), ('i', 0x22), ('p', 0x23),
  ('l', 0x25), ('j', 0x26), ('\'', 0x27), ('k', 0x28), (';', 0x29), ('\\', 0x2A), (',', 0x2B),
  ('/', 0x2C), ('n', 0x2D), ('m', 0x2E), ('.', 0x2F), ('\t', 0x30), (' ', 0x31), ('\x60', 0x32),
  ('\x7F', 0x33)]

def macKeyCode (ch : Char) : Option UInt16 := macKeyCodes.lookup ch

def macFlagShift : UInt64 := (1 : UInt64) <<< (17 : UInt64)

def macFlagCommand : UInt64 := (1 : UInt64) <<< (20 : UInt64)

def needsShift (ch : Char) : Bool := ch.isUpper || ch ∈ "~!@#$%^&*()_+\x7b\x7d|:\"<>?".toList

/-- The key code and the flags that a character is posted with. -/
def keyFor (ch : Char) : Option (UInt16 × UInt64) :=
  (macKeyCode ch.toLower).map fun code => (code, if needsShift ch then macFlagShift else 0)

/-! ### Requests -/

inductive MacOp where
  | accessibilityPermission
  | createSource
  | createKeyboardEvent (code : UInt16) (keyDown : Bool)
  | postEvent (code : UInt16) (keyDown : Bool) (flags : UInt64)
  | sleep (ms : UInt64)
  deriving DecidableEq

abbrev MacInput : Interface where
  Op := MacOp
  Ans
    | .accessibilityPermission => Bool
    | .sleep _ => Unit
    | _ => Except NativeError Unit

abbrev MacM := ExceptT NativeError (Prog MacInput)

def createSource : MacM Unit := ExceptT.mk (perform (I := MacInput) .createSource)

def createKeyboardEvent (code : UInt16) (keyDown : Bool) : MacM Unit :=
  ExceptT.mk (perform (I := MacInput) (.createKeyboardEvent code keyDown))

def macPostEvent (code : UInt16) (keyDown : Bool) (flags : UInt64) : MacM Unit :=
  ExceptT.mk (perform (I := MacInput) (.postEvent code keyDown flags))

def sleep (ms : UInt64) : MacM Unit :=
  monadLift (perform (I := MacInput) (.sleep ms) : Prog MacInput Unit)

def macPostKey (code : UInt16) (flags : UInt64) : MacM Unit := do
  createSource
  createKeyboardEvent code true
  macPostEvent code true flags
  createSource
  createKeyboardEvent code false
  macPostEvent code false flags

/-- The result of a post is not looked at. -/
def ignored (x : MacM Unit) : MacM Unit := do
  let _ ← (monadLift x.run : MacM (Except NativeError Unit))

def typeCharacter (delayMs : Option UInt64) (ch : Char) : MacM Unit := do
  match keyFor ch with
  | some (code, flags) => ignored (macPostKey code flags)
  | none => pure ()
  sleep (delayMs.getD 12)

def macClear : MacM Unit := do
  ignored (macPostKey 0x00 macFlagCommand)
  sleep 50
  ignored (macPostKey 0x33 0)
  sleep 50

def macTypeText (text : String) (clear pressReturn : Bool) (delayMs : Option UInt64) :
    MacM Unit := do
  let permitted ← (monadLift (perform (I := MacInput) .accessibilityPermission) : MacM Bool)
  if permitted then
    when clear macClear
    text.toList.forM (typeCharacter delayMs)
    when pressReturn (ignored (macPostKey 0x24 0))
  else throw ⟨⟩

/-! ### A US keyboard -/

/-- The keys of the US layout: what they enter without shift and with it. -/
def usKeys : List (UInt16 × Char × Char) := [
  (0x00, 'a', 'A'), (0x01, 's', 'S'), (0x02, 'd', 'D'), (0x03, 'f', 'F'), (0x04, 'h', 'H'),
  (0x05, 'g', 'G'), (0x06, 'z', 'Z'), (0x07, 'x', 'X'), (0x08, 'c', 'C'), (0x09, 'v', 'V'),
  (0x0B, 'b', 'B'), (0x0C, 'q', 'Q'), (0x0D, 'w', 'W'), (0x0E, 'e', 'E'), (0x0F, 'r', 'R'),
  (0x10, 'y', 'Y'), (0x11, 't', 'T'), (0x12, '1', '!'), (0x13, '2', '@'), (0x14, '3', '#'),
  (0x15, '4', '$'), (0x16, '6', '^'), (0x17, '5', '%'), (0x18, '=', '+'), (0x19, '9', '('),
  (0x1A, '7', '&'), (0x1B, '-', '_'), (0x1C, '8', '*'), (0x1D, '0', ')'), (0x1E, ']', '\x7d'),
  (0x1F, 'o', 'O'), (0x20, 'u', 'U'), (0x21, '[', '\x7b'), (0x22, 'i', 'I'), (0x23, 'p', 'P'),
  (0x24, '\n', '\n'), (0x25, 'l', 'L'), (0x26, 'j', 'J'), (0x27, '\'', '"'), (0x28, 'k', 'K'),
  (0x29, ';', ':'), (0x2A, '\\', '|'), (0x2B, ',', '<'), (0x2C, '/', '?'), (0x2D, 'n', 'N'),
  (0x2E, 'm', 'M'), (0x2F, '.', '>'), (0x30, '\t', '\t'), (0x31, ' ', ' '), (0x32, '\x60', '~'),
  (0x33, '\x7F', '\x7F')]

/-- What a key enters on the US layout, with flags that hold at most shift. -/
def usCharacter (key : UInt16 × UInt64) : Option Char :=
  (usKeys.lookup key.1).bind fun (base, shifted) =>
    if key.2 = 0 then some base else if key.2 = macFlagShift then some shifted else none

theorem keyFor_ascii {ch : Char} {key : UInt16 × UInt64} (found : keyFor ch = some key) :
    ch.toNat < 128 := by
  obtain ⟨code, listed, _⟩ := Option.map_eq_some_iff.mp found
  obtain ⟨_, _, split, _⟩ := List.lookup_eq_some_iff.mp listed
  have member : (ch.toLower, code) ∈ macKeyCodes := by simp [split]
  have small : ∀ entry ∈ macKeyCodes, entry.1.toNat < 128 := by decide
  have lower : ch.toLower.toNat < 128 := small _ member
  by_cases upper : 'A' ≤ ch ∧ ch ≤ 'Z'
  · have below : ch.toNat ≤ 90 := upper.2
    omega
  · have same : ch.toLower = ch := dif_neg upper
    rwa [same] at lower

/-- Where a character has a key, the key enters it. -/
theorem usCharacter_keyFor {ch : Char} {key : UInt16 × UInt64} (found : keyFor ch = some key) :
    usCharacter key = some ch := by
  have each : ∀ n : Fin 128, (keyFor (Char.ofNat n)).all
      (fun key => usCharacter key = some (Char.ofNat n)) = true := by decide +kernel
  have same := each ⟨ch.toNat, keyFor_ascii found⟩
  simpa [found] using same

/-! ### What is posted -/

inductive MacDeed where
  | posted (keyDown : Bool) (key : UInt16 × UInt64)
  | failed
  deriving DecidableEq

/-- A post that succeeds is delivered, and any request may fail. -/
def macDeeds : Event MacInput → List MacDeed
  | ⟨.postEvent code keyDown flags, .ok _⟩ => [.posted keyDown (code, flags)]
  | ⟨.postEvent .., .error _⟩ => [.failed]
  | ⟨.createSource, .error _⟩ => [.failed]
  | ⟨.createKeyboardEvent .., .error _⟩ => [.failed]
  | _ => []

/-- Keeps account of the deeds. -/
def account : Monitor MacInput (List MacDeed) where
  learn deeds e := deeds ++ macDeeds e
  allows _ _ := True

/-- What a history delivered and how often it failed. -/
def deedsOf (trace : List (Event MacInput)) : List MacDeed := trace.flatMap macDeeds

/-- The keys whose presses were delivered, or whose releases were. -/
def delivered (keyDown : Bool) (deeds : List MacDeed) : List (UInt16 × UInt64) :=
  deeds.filterMap fun
    | .posted down key => if down = keyDown then some key else none
    | .failed => none

@[simp] theorem delivered_append (keyDown : Bool) (first second : List MacDeed) :
    delivered keyDown (first ++ second) = delivered keyDown first ++ delivered keyDown second :=
  List.filterMap_append

/-- One press and one release per character were delivered, in order, of keys that enter the
characters on the US layout. -/
def Delivers (text : List Char) (deeds : List MacDeed) : Prop :=
  ∀ keyDown, (delivered keyDown deeds).map usCharacter = text.map some

/-- Every character has a key, and no request failed. -/
def Deliverable (text : List Char) (deeds : List MacDeed) : Prop :=
  (∀ ch ∈ text, (keyFor ch).isSome) ∧ .failed ∉ deeds

/-! ### Posts -/

section Posts

variable {past : List MacDeed} {ok : Unit → List MacDeed → Prop}
  {err : NativeError → List MacDeed → Prop}

theorem judged_createSource (good : ok () past) (bad : err ⟨⟩ (past ++ [.failed])) :
    Judged account ok err createSource past := by
  intro ans
  refine ⟨_, ⟨trivial, rfl⟩, ?_⟩
  cases ans with
  | ok =>
    change ok () (past ++ [])
    rwa [List.append_nil]
  | error => exact bad

theorem judged_createKeyboardEvent {code : UInt16} {keyDown : Bool} (good : ok () past)
    (bad : err ⟨⟩ (past ++ [.failed])) :
    Judged account ok err (createKeyboardEvent code keyDown) past := by
  intro ans
  refine ⟨_, ⟨trivial, rfl⟩, ?_⟩
  cases ans with
  | ok =>
    change ok () (past ++ [])
    rwa [List.append_nil]
  | error => exact bad

theorem judged_macPostEvent {code : UInt16} {keyDown : Bool} {flags : UInt64}
    (good : ok () (past ++ [.posted keyDown (code, flags)])) (bad : err ⟨⟩ (past ++ [.failed])) :
    Judged account ok err (macPostEvent code keyDown flags) past := by
  intro ans
  refine ⟨_, ⟨trivial, rfl⟩, ?_⟩
  cases ans with
  | ok => exact good
  | error => exact bad

end Posts

/-- What the post of a key may come to. -/
inductive PostOutcome (key : UInt16 × UInt64) : List MacDeed → Prop where
  | tapped : PostOutcome key [.posted true key, .posted false key]
  | refused : PostOutcome key [.failed]
  | held : PostOutcome key [.posted true key, .failed]

theorem judged_macPostKey (code : UInt16) (flags : UInt64) (past : List MacDeed) :
    Judged account (fun _ now => ∃ done, PostOutcome (code, flags) done ∧ now = past ++ done)
      (fun _ now => ∃ done, PostOutcome (code, flags) done ∧ now = past ++ done)
      (macPostKey code flags) past := by
  have refused : ∃ done, PostOutcome (code, flags) done ∧ past ++ [.failed] = past ++ done :=
    ⟨_, .refused, rfl⟩
  have held : ∃ done, PostOutcome (code, flags) done ∧
      past ++ [.posted true (code, flags)] ++ [.failed] = past ++ done := by
    refine ⟨_, .held, ?_⟩
    rw [List.append_assoc]
    rfl
  refine judged_bind (judged_createSource ?_ refused)
  refine judged_bind (judged_createKeyboardEvent ?_ refused)
  refine judged_bind (judged_macPostEvent ?_ refused)
  refine judged_bind (judged_createSource ?_ held)
  refine judged_bind (judged_createKeyboardEvent ?_ held)
  refine judged_macPostEvent ?_ held
  refine ⟨_, .tapped, ?_⟩
  rw [List.append_assoc]
  rfl

/-- What typing a character may come to. -/
def Typed (ch : Char) (done : List MacDeed) : Prop :=
  match keyFor ch with
  | some key => PostOutcome key done
  | none => done = []

theorem judged_typeCharacter (delayMs : Option UInt64) (ch : Char) (past : List MacDeed)
    {err : NativeError → List MacDeed → Prop} :
    Judged account (fun _ now => ∃ done, Typed ch done ∧ now = past ++ done) err
      (typeCharacter delayMs ch) past := by
  have sleeps (now : List MacDeed) (typed : ∃ done, Typed ch done ∧ now = past ++ done) :
      Judged account (fun _ now => ∃ done, Typed ch done ∧ now = past ++ done) err
        (sleep (delayMs.getD 12)) now := by
    refine judged_ask trivial fun _ => ?_
    simpa [account, macDeeds] using typed
  rw [typeCharacter]
  cases found : keyFor ch with
  | none =>
    refine judged_bind (judged_pure (sleeps past ⟨[], ?_, ?_⟩))
    · simp [Typed, found]
    · rw [List.append_nil]
  | some key =>
    obtain ⟨code, flags⟩ := key
    refine judged_bind (judged_ignored ?_)
    refine judged_mono (judged_macPostKey code flags past) ?_ ?_
    all_goals
      rintro _ _ ⟨done, outcome, rfl⟩
      refine sleeps _ ⟨done, ?_, rfl⟩
      simpa [Typed, found] using outcome

/-! ### Main theorem -/

/-- Delivered and deliverable agree so far, and no more than one tap per character is out. -/
def Accounted (text : List Char) (deeds : List MacDeed) : Prop :=
  (Delivers text deeds ↔ Deliverable text deeds) ∧
    ∀ keyDown, (delivered keyDown deeds).length ≤ text.length

/-- Where nothing of a character is delivered, the text is not. -/
theorem not_delivers_concat {text : List Char} {deeds done : List MacDeed} {ch : Char}
    (keyDown : Bool) (few : ∀ keyDown, (delivered keyDown deeds).length ≤ text.length)
    (none : delivered keyDown done = []) : ¬ Delivers (text ++ [ch]) (deeds ++ done) := by
  intro delivers
  have lengths := congrArg List.length (delivers keyDown)
  have fewer := few keyDown
  simp [none] at lengths
  omega

theorem accounted_concat {text : List Char} {deeds done : List MacDeed} {ch : Char}
    (accounted : Accounted text deeds) (typed : Typed ch done) :
    Accounted (text ++ [ch]) (deeds ++ done) := by
  obtain ⟨agree, few⟩ := accounted
  rw [Typed] at typed
  cases found : keyFor ch with
  | none =>
    rw [found] at typed
    obtain rfl : done = [] := typed
    have undelivered := @not_delivers_concat text deeds [] ch true few rfl
    refine ⟨iff_of_false undelivered ?_, ?_⟩
    · simp [Deliverable, found]
    · intro keyDown
      have fewer := few keyDown
      simp [delivered] at fewer ⊢
      omega
  | some key =>
    rw [found] at typed
    have outcome : PostOutcome key done := typed
    have short (keyDown : Bool) (one : (delivered keyDown done).length ≤ 1) :
        (delivered keyDown (deeds ++ done)).length ≤ (text ++ [ch]).length := by
      have fewer := few keyDown
      simp
      omega
    cases outcome with
    | tapped =>
      have enters := usCharacter_keyFor found
      have both (keyDown : Bool) : delivered keyDown [.posted true key, .posted false key] = [key] := by
        cases keyDown <;> simp [delivered]
      refine ⟨?_, fun keyDown => short keyDown (by simp [both])⟩
      have delivers : Delivers (text ++ [ch])
          (deeds ++ [.posted true key, .posted false key]) ↔ Delivers text deeds := by
        simp only [Delivers, delivered_append, List.map_append, both, List.map_singleton, enters]
        exact forall_congr' fun keyDown => List.append_left_inj _
      rw [delivers, agree]
      simp [Deliverable, found, or_imp, forall_and]
    | refused =>
      have undelivered := @not_delivers_concat text deeds [.failed] ch true few rfl
      refine ⟨iff_of_false undelivered ?_, fun keyDown => short keyDown (by simp [delivered])⟩
      simp [Deliverable]
    | held =>
      have undelivered := @not_delivers_concat text deeds [.posted true key, .failed] ch false few rfl
      refine ⟨iff_of_false undelivered ?_, fun keyDown => short keyDown ?_⟩
      · simp [Deliverable]
      · cases keyDown <;> simp [delivered]

theorem judged_macTypeText (text : String) (delayMs : Option UInt64) :
    Judged account (fun _ deeds => Accounted text.toList deeds) (fun _ _ => True)
      (macTypeText text false false delayMs) [] := by
  refine judged_bind (judged_ask trivial fun permitted => ?_)
  cases permitted with
  | false => exact judged_throw trivial
  | true =>
    have initial : Accounted [] [] := ⟨by simp [Delivers, Deliverable, delivered], by simp [delivered]⟩
    have loop := @judged_forM _ _ NativeError _ account (fun _ _ => True) []
      (typeCharacter delayMs) Accounted [] text.toList initial fun done ch deeds _ accounted => by
        refine judged_mono (judged_typeCharacter delayMs ch deeds) ?_ fun _ _ => id
        rintro _ _ ⟨typed, outcome, rfl⟩
        exact accounted_concat accounted outcome
    refine judged_bind (judged_pure ?_)
    refine judged_bind (judged_mono loop ?_ fun _ _ => id)
    intro _ _ accounted
    exact judged_pure accounted

theorem account_after (trace : List (Event MacInput)) (past : List MacDeed) :
    account.after past trace = past ++ deedsOf trace := by
  induction trace generalizing past with
  | nil => exact (List.append_nil _).symm
  | cons e trace ih =>
    have rest := ih (past ++ macDeeds e)
    rw [List.append_assoc] at rest
    exact rest

/-- **Typing on macOS**: when typing succeeds, every character was delivered exactly if every
character has a key and no request failed. -/
theorem mac_typing_delivers (text : String) (delayMs : Option UInt64)
    (trace : List (Event MacInput))
    (run : Steps (macTypeText text false false delayMs).run trace (.ret (.ok ()))) :
    Delivers text.toList (deedsOf trace) ↔ Deliverable text.toList (deedsOf trace) := by
  have accounted : Accounted text.toList (account.after [] trace) :=
    judged_run (judged_macTypeText text delayMs) run
  rw [account_after, List.nil_append] at accounted
  exact accounted.1

/-! ### A desktop that posts all it is asked to -/

def respond : (op : MacOp) → Unit → MacInput.Ans op × Unit
  | .accessibilityPermission, s => (true, s)
  | .sleep _, s => ((), s)
  | .createSource, s | .createKeyboardEvent .., s | .postEvent .., s => (.ok (), s)

def traceOf (text : String) : List (Event MacInput) :=
  (play respond 400 (macTypeText text false false none).run ()).1

theorem steps_traceOf {text : String}
    (succeeded : (play respond 400 (macTypeText text false false none).run ()).2.1.returned?.any
      (fun | .ok _ => true | .error _ => false) = true) :
    Steps (macTypeText text false false none).run (traceOf text) (.ret (.ok ())) := by
  obtain ⟨result, ok, run⟩ := steps_returned succeeded
  cases result with
  | ok => exact run
  | error => exact absurd ok Bool.false_ne_true

theorem mac_typing_delivers_hi : Delivers "Hi".toList (deedsOf (traceOf "Hi")) := by
  have exactly := mac_typing_delivers "Hi" none _ (steps_traceOf (by decide +kernel))
  have keys : ("Hi".toList.all fun ch => (keyFor ch).isSome) = true := by decide
  apply exactly.mpr
  constructor
  · exact List.all_eq_true.mp keys
  · decide +kernel

/-- An exclamation mark is passed over. -/
theorem mac_typing_drops :
    ¬ ∀ (text : String) (delayMs : Option UInt64) (trace : List (Event MacInput)),
      Steps (macTypeText text false false delayMs).run trace (.ret (.ok ())) →
      Delivers text.toList (deedsOf trace) := by
  intro always
  have delivers := always "!" none _ (steps_traceOf (by decide +kernel)) true
  revert delivers
  decide +kernel

end Praefectus.Mac
