import Praefectus.Semantic.Fence
import Praefectus.Text.Trim

/-!
# Text from providers

Every backend cleans the roles and names that its provider reports before it puts them
into an observation. The checks of an observation are stricter than three of the four
backends.
-/

namespace Praefectus

/-- `str::trim`. -/
def trim (value : String) : String := .ofList (value.toList.trimBy isWhitespace)

/-! ### What each backend makes of a text -/

namespace Mac

def boundedSemanticText (value : String) (maximum : Nat) : Option String :=
  let value := value.toList.filter fun character => !isControl character
  let value := trim (.ofList (takeBytes maximum value))
  if value = "" then none else some value

def boundedSemanticName (value : Option String) : Option String :=
  value.bind fun value => boundedSemanticText value 1024

def boundedSemanticRole (value : String) : String :=
  (boundedSemanticText value 128).getD "unknown"

end Mac

namespace Cdp

def redactedName (value : String) : Option String :=
  let value := trim value
  if value = "" then none
  else
    let value := (value.toList.filter fun character => !isControl character).take 1024
    if value = [] then none else some (.ofList value)

def axValue (value : Option Json) : Option String := do
  redactedName (← (← (← value).get? "value").asStr)

end Cdp

namespace Linux

def maxTextBytes : Nat := 1024

def boundedText (value : String) : Except ProtocolError String :=
  if value = "" || value.utf8ByteSize > maxTextBytes || value.toList.any isControl then
    throw (.executor "accessibility text is invalid")
  else pure value

def boundedOptionalText (value : String) : Except ProtocolError (Option String) :=
  if value = "" then pure none else some <$> boundedText value

end Linux

namespace Windows

/-- The argument is the text of the string the provider returned, if it returned one. -/
def boundedBstr (value : Option String) : Option String :=
  value.bind fun value =>
    let trimmed := trim value
    if trimmed ≠ "" && trimmed.utf8ByteSize ≤ 1024 then some trimmed else none

end Windows

/-! ### The texts of an element -/

inductive TextField where
  | role | name
  deriving DecidableEq

def TextField.maximum : TextField → Nat
  | .role => 128
  | .name => 1024

/-- The conditions of `validElement` on a role and on a name that is present. -/
def TextField.accepts : TextField → String → Bool
  | .role, text => validText text 1 128
  | .name, text => validText text 0 1024

/-- The conditions on the texts are independent of the rest of the element. -/
theorem validElement_texts (element : SemanticElement) :
    validElement element = true ↔
      validElement { element with role := "unknown", name := none } = true ∧
        TextField.accepts .role element.role = true ∧
        ∀ name ∈ element.name, TextField.accepts .name name = true := by
  have unknown : validText "unknown" 1 128 = true := by decide +kernel
  cases name : element.name <;>
    simp only [validElement, TextField.accepts, unknown, name, Bool.and_eq_true, Option.all_none,
      Option.all_some, Option.mem_def, reduceCtorEq, Option.some.injEq, false_implies, forall_eq',
      implies_true, and_true] <;> tauto

theorem validText_iff (value : String) (minimum maximum : Nat) :
    validText value minimum maximum = true ↔
      minimum ≤ (utf8 value.toList).length ∧ (utf8 value.toList).length ≤ maximum ∧
        (∀ c ∈ value.toList, isControl c = false) ∧ ∃ c ∈ value.toList, isWhitespace c = false := by
  simp [validText, String.utf8ByteSize_eq, and_assoc]

/-- A role needs at least one character, which every text that is not blank has. -/
theorem accepts_iff (field : TextField) (text : String) :
    field.accepts text = true ↔
      (utf8 text.toList).length ≤ field.maximum ∧ (∀ c ∈ text.toList, isControl c = false) ∧
        ∃ c ∈ text.toList, isWhitespace c = false := by
  have filled : (∃ c ∈ text.toList, isWhitespace c = false) → 1 ≤ (utf8 text.toList).length := by
    rintro ⟨c, member, -⟩
    exact utf8_length_pos (List.ne_nil_of_mem member)
  cases field with
  | role =>
    rw [TextField.accepts, validText_iff, TextField.maximum]
    constructor
    · intro both
      exact both.2
    · intro rest
      exact ⟨filled rest.2.2, rest⟩
  | name => simp [TextField.accepts, validText_iff, TextField.maximum]

/-! ### When a backend's text is accepted -/

inductive Normaliser where
  | macName | macRole | cdpName | cdpRole | linuxName | linuxRole | windowsName
  deriving DecidableEq

namespace Normaliser

def field : Normaliser → TextField
  | macName | cdpName | linuxName | windowsName => .name
  | macRole | cdpRole | linuxRole => .role

/-- The text that a backend makes of its provider's without an error, if it makes one. -/
def produce : Normaliser → String → Option String
  | macName, value => Mac.boundedSemanticName (some value)
  | macRole, value => some (Mac.boundedSemanticRole value)
  | cdpName, value | cdpRole, value =>
    Cdp.axValue (some (.obj [("type", .str "computedString"), ("value", .str value)]))
  | linuxName, value => (Linux.boundedOptionalText value).toOption.join
  | linuxRole, value => (Linux.boundedText value).toOption
  | windowsName, value => Windows.boundedBstr (some value)

end Normaliser

theorem trim_toList (value : String) : (trim value).toList = value.toList.trimBy isWhitespace := by
  simp [trim]

theorem trim_not_blank {value : String} (nonempty : trim value ≠ "") :
    ∃ c ∈ (trim value).toList, isWhitespace c = false := by
  by_contra blank
  apply nonempty
  rw [← String.toList_eq_nil_iff, trim_toList, ← List.trimBy_all_iff, List.all_eq_true]
  intro c member
  rw [← trim_toList] at member
  simpa using fun visible => blank ⟨c, member, visible⟩

/-- Text that is filtered, cut and trimmed passes every check. -/
theorem boundedSemanticText_accepted {value text : String} {maximum : Nat}
    (produced : Mac.boundedSemanticText value maximum = some text) :
    (utf8 text.toList).length ≤ maximum ∧ (∀ c ∈ text.toList, isControl c = false) ∧
      ∃ c ∈ text.toList, isWhitespace c = false := by
  unfold Mac.boundedSemanticText at produced
  simp only at produced
  split at produced
  next => cases produced
  next nonempty =>
    cases Option.some.inj produced
    have inside := List.trimBy_infix isWhitespace
      (takeBytes maximum (value.toList.filter fun character => !isControl character))
    refine ⟨?_, ?_, trim_not_blank nonempty⟩
    · rw [trim_toList, String.toList_ofList]
      exact Nat.le_trans (utf8_sublist inside.sublist) (takeBytes_fits _ _)
    · intro c member
      rw [trim_toList, String.toList_ofList] at member
      have kept := (prefix_takeBytes _ _).subset (inside.subset member)
      simpa using (List.mem_filter.mp kept).2

/-- The characters of a text between the blanks around it that are not control characters. -/
def printing (value : String) : List Char :=
  (trim value).toList.filter fun character => !isControl character

namespace Normaliser

/-- The provider's texts of which a backend makes nothing, or a text that is accepted. -/
def Suits : Normaliser → String → Prop
  | macName, _ | macRole, _ => True
  | cdpName, value =>
    printing value = [] ∨
      (∃ c ∈ (printing value).take 1024, isWhitespace c = false) ∧
        ((utf8 (printing value)).length ≤ 1024 ∨ ∀ c ∈ (printing value).take 1024, c.utf8Size = 1)
  | cdpRole, value =>
    printing value = [] ∨
      (∃ c ∈ printing value, isWhitespace c = false) ∧ (utf8 (printing value)).length ≤ 128
  | linuxName, value =>
    1024 < value.utf8ByteSize ∨ (∃ c ∈ value.toList, isControl c = true) ∨ value = "" ∨
      ∃ c ∈ value.toList, isWhitespace c = false
  | linuxRole, value =>
    1024 < value.utf8ByteSize ∨ (∃ c ∈ value.toList, isControl c = true) ∨ value = "" ∨
      (∃ c ∈ value.toList, isWhitespace c = false) ∧ value.utf8ByteSize ≤ 128
  | windowsName, value =>
    trim value = "" ∨ 1024 < (trim value).utf8ByteSize ∨
      ∀ c ∈ (trim value).toList, isControl c = false

end Normaliser

theorem axValue_text (value : String) :
    Cdp.axValue (some (.obj [("type", .str "computedString"), ("value", .str value)])) =
      Cdp.redactedName value := by
  simp [Cdp.axValue, Json.get?, Json.asStr, List.lookup_cons]

theorem redactedName_eq (value : String) :
    Cdp.redactedName value =
      if printing value = [] then none else some (.ofList ((printing value).take 1024)) := by
  unfold Cdp.redactedName
  by_cases blank : trim value = ""
  · have none : printing value = [] := by simp [printing, blank]
    simp [blank, none]
  · simp only [blank, if_false]
    change (if (printing value).take 1024 = [] then _ else _) = _
    by_cases empty : printing value = []
    · simp [empty]
    · simp [empty]
      rfl

/-- The text that CDP makes is the beginning of what is printing in the provider's. -/
theorem redactedName_accepted_iff (field : TextField) (value : String) :
    (∀ text, Cdp.redactedName value = some text → field.accepts text = true) ↔
      printing value = [] ∨
        (∃ c ∈ (printing value).take 1024, isWhitespace c = false) ∧
          (utf8 ((printing value).take 1024)).length ≤ field.maximum := by
  rw [redactedName_eq]
  by_cases empty : printing value = []
  · simp [empty]
  · have plain : ∀ c ∈ (printing value).take 1024, isControl c = false := by
      intro c member
      simpa using (List.mem_filter.mp (List.mem_of_mem_take member)).2
    simp only [empty, if_false, Option.some.injEq, forall_eq', false_or, accepts_iff,
      String.toList_ofList]
    constructor
    · intro accepted
      exact ⟨accepted.2.2, accepted.1⟩
    · intro both
      exact ⟨both.2, plain, both.1⟩

theorem cut_name_iff (text : List Char) :
    (utf8 (text.take 1024)).length ≤ 1024 ↔
      (utf8 text).length ≤ 1024 ∨ ∀ c ∈ text.take 1024, c.utf8Size = 1 := by
  by_cases long : 1024 ≤ text.length
  · have full : (text.take 1024).length = 1024 := by simp [long]
    rw [← utf8_length_eq_iff, full]
    have shorter := utf8_sublist (List.take_sublist 1024 text)
    omega
  · rw [List.take_of_length_le (by omega), ← utf8_length_eq_iff]
    omega

theorem cut_role_iff (text : List Char) :
    (∃ c ∈ text.take 1024, isWhitespace c = false) ∧ (utf8 (text.take 1024)).length ≤ 128 ↔
      (∃ c ∈ text, isWhitespace c = false) ∧ (utf8 text).length ≤ 128 := by
  by_cases long : 1024 ≤ text.length
  · -- then both texts are too long for a role
    have full : (text.take 1024).length = 1024 := by simp [long]
    have cut := length_le_utf8 (text.take 1024)
    have whole := length_le_utf8 text
    omega
  · rw [List.take_of_length_le (by omega)]

theorem boundedText_ok (value text : String) :
    (Linux.boundedText value).toOption = some text ↔
      text = value ∧ value ≠ "" ∧ value.utf8ByteSize ≤ 1024 ∧
        ∀ c ∈ value.toList, isControl c = false := by
  unfold Linux.boundedText
  split
  next refused =>
    have bound : Linux.maxTextBytes = 1024 := rfl
    simp only [Bool.or_eq_true, decide_eq_true_eq, List.any_eq_true, bound] at refused
    simp only [throw, throwThe, MonadExceptOf.throw, Except.toOption, reduceCtorEq, false_iff]
    rintro ⟨-, filled, short, plain⟩
    rcases refused with (empty | long) | ⟨c, member, control⟩
    · exact filled empty
    · omega
    · simp [plain c member] at control
  next passed =>
    have bound : Linux.maxTextBytes = 1024 := rfl
    simp only [Bool.or_eq_true, decide_eq_true_eq, List.any_eq_true, bound, not_or, not_exists,
      not_and, Bool.not_eq_true] at passed
    simp only [pure, Except.pure, Except.toOption, Option.some.injEq]
    constructor
    · rintro rfl
      exact ⟨rfl, passed.1.1, by omega, passed.2⟩
    · intro all
      exact all.1.symm

/-- Linux passes a text on as it is, and refuses the empty ones, the long ones and those
with control characters. -/
theorem boundedText_accepted_iff (field : TextField) (value : String) :
    (∀ text, (Linux.boundedText value).toOption = some text → field.accepts text = true) ↔
      1024 < value.utf8ByteSize ∨ (∃ c ∈ value.toList, isControl c = true) ∨ value = "" ∨
        (∃ c ∈ value.toList, isWhitespace c = false) ∧ value.utf8ByteSize ≤ field.maximum := by
  simp only [boundedText_ok, accepts_iff, String.utf8ByteSize_eq]
  constructor
  · intro accepted
    by_contra refused
    simp only [not_or, not_lt] at refused
    obtain ⟨short, control, filled, rest⟩ := refused
    have plain : ∀ c ∈ value.toList, isControl c = false := by
      intro c member
      simpa using fun holds => control ⟨c, member, holds⟩
    obtain ⟨fits, -, c, member, visible⟩ := accepted value ⟨rfl, filled, short, plain⟩
    exact rest ⟨⟨c, member, visible⟩, fits⟩
  · rintro suits text ⟨rfl, filled, short, plain⟩
    rcases suits with long | ⟨c, member, control⟩ | empty | ⟨visible, fits⟩
    · omega
    · simp [plain c member] at control
    · exact absurd empty filled
    · exact ⟨fits, plain, visible⟩

theorem boundedOptionalText_eq (value : String) :
    (Linux.boundedOptionalText value).toOption.join = (Linux.boundedText value).toOption := by
  unfold Linux.boundedOptionalText
  by_cases empty : value = ""
  · subst empty
    rfl
  · simp only [empty, if_false]
    cases Linux.boundedText value <;> rfl

theorem boundedBstr_accepted_iff (value : String) :
    (∀ text, Windows.boundedBstr (some value) = some text → TextField.accepts .name text = true) ↔
      trim value = "" ∨ 1024 < (trim value).utf8ByteSize ∨
        ∀ c ∈ (trim value).toList, isControl c = false := by
  simp only [Windows.boundedBstr, Option.bind_some]
  by_cases empty : trim value = ""
  · simp [empty]
  · by_cases long : 1024 < (trim value).utf8ByteSize
    · simp [long]
    · have fits : (trim value).utf8ByteSize ≤ 1024 := by omega
      have visible := trim_not_blank empty
      simp only [ne_eq, empty, not_false_eq_true, decide_true, fits, Bool.and_self, if_true,
        Option.some.injEq, forall_eq', long, false_or, accepts_iff, TextField.maximum,
        ← String.utf8ByteSize_eq, visible, and_true, true_and]

/-- **The texts a backend can be trusted with.** -/
theorem produced_accepted_iff (normaliser : Normaliser) (value : String) :
    (∀ text, normaliser.produce value = some text → normaliser.field.accepts text = true) ↔
      normaliser.Suits value := by
  cases normaliser with
  | macName =>
    simp only [Normaliser.Suits, iff_true, Normaliser.produce, Normaliser.field]
    intro text produced
    rw [Mac.boundedSemanticName, Option.bind_some] at produced
    rw [accepts_iff, TextField.maximum]
    exact boundedSemanticText_accepted produced
  | macRole =>
    simp only [Normaliser.Suits, iff_true, Normaliser.produce, Normaliser.field]
    intro text produced
    rw [Mac.boundedSemanticRole, Option.some.injEq] at produced
    cases cleaned : Mac.boundedSemanticText value 128 with
    | none =>
      rw [cleaned, Option.getD_none] at produced
      rw [← produced]
      decide +kernel
    | some role =>
      rw [cleaned, Option.getD_some] at produced
      rw [← produced, accepts_iff, TextField.maximum]
      exact boundedSemanticText_accepted cleaned
  | cdpName =>
    simp only [Normaliser.produce, axValue_text, Normaliser.field, redactedName_accepted_iff,
      TextField.maximum, cut_name_iff, Normaliser.Suits]
  | cdpRole =>
    simp only [Normaliser.produce, axValue_text, Normaliser.field, redactedName_accepted_iff,
      TextField.maximum, cut_role_iff, Normaliser.Suits]
  | linuxName =>
    simp only [Normaliser.produce, boundedOptionalText_eq, Normaliser.field,
      boundedText_accepted_iff, TextField.maximum, Normaliser.Suits]
    by_cases long : 1024 < value.utf8ByteSize
    · simp [long]
    · -- a text that is not too long to be passed on is not too long for a name
      have fits : value.utf8ByteSize ≤ 1024 := by omega
      simp [long, fits]
  | linuxRole =>
    simp only [Normaliser.produce, Normaliser.field, boundedText_accepted_iff, TextField.maximum,
      Normaliser.Suits]
  | windowsName =>
    simp only [Normaliser.produce, Normaliser.field, boundedBstr_accepted_iff, Normaliser.Suits]

/-- One name that is not accepted, and the whole snapshot is rejected. -/
theorem snapshot_rejected {observation : SemanticObservation} {element : SemanticElement}
    {name : String} (member : element ∈ observation.elements) (named : element.name = some name)
    (refused : TextField.accepts .name name = false) (nowMs : Int64) :
    observation.validate nowMs ≠ .ok () := by
  intro valid
  obtain ⟨-, -, wellFormed⟩ := validate_ok valid
  have texts := (validElement_texts element).mp (wellFormed.valid element member)
  have accepted := texts.2.2 name (by simp [named])
  simp [refused] at accepted

/-- The sample snapshot, with a name that a provider chose. -/
def namedObservation (name : String) : SemanticObservation :=
  { sampleObservation with elements := [{ sampleButton with parentId := none, name := some name }] }

/-- A blank name, a name that is blank but for control characters, and a name of two
lines: each is passed on by a backend, and the snapshot is rejected for it. -/
theorem produced_rejected :
    (Normaliser.produce .linuxName " " = some " " ∧
      ∀ nowMs, (namedObservation " ").validate nowMs ≠ .ok ()) ∧
    (Normaliser.produce .cdpName "\x01 \x01" = some " " ∧
      ∀ nowMs, (namedObservation " ").validate nowMs ≠ .ok ()) ∧
    (Normaliser.produce .windowsName "a\nb" = some "a\nb" ∧
      ∀ nowMs, (namedObservation "a\nb").validate nowMs ≠ .ok ()) := by
  have rejected (name : String) (refused : TextField.accepts .name name = false) (nowMs : Int64) :
      (namedObservation name).validate nowMs ≠ .ok () :=
    snapshot_rejected List.mem_cons_self rfl refused nowMs
  refine ⟨⟨by decide +kernel, ?_⟩, ⟨by decide +kernel, ?_⟩, ⟨by decide +kernel, ?_⟩⟩
  · exact rejected " " (by decide +kernel)
  · exact rejected " " (by decide +kernel)
  · exact rejected "a\nb" (by decide +kernel)

end Praefectus
