import Praefectus.Ledger.Journal

/-!
# Repair and reading agree

The repair looks at the bytes of the complete part line by line; the reader decodes lines of
text. A file that the repair accepts is left with its complete part, and is then read as the
records of the lines that are not blank.
-/

namespace Praefectus

variable {R : Type}

/-! ### The loop over the bytes -/

section

variable (format : JsonLines R)

/-- `&bytes[start..stop]`; nothing if the range is not within the bytes. -/
def slice (bytes : List UInt8) (start stop : Nat) : Option (List UInt8) :=
  if start ≤ stop ∧ stop ≤ bytes.length then some ((bytes.take stop).drop start) else none

/-- Whether all lines from the offset on are accepted; nothing if an index is out of range. -/
def checkLines (bytes : List UInt8) (durableLen offset : Nat) : Option Bool :=
  if offset < durableLen then
    match slice bytes offset durableLen with
    | none => none
    | some rest =>
      let stop := offset + (rest.findIdx? (· == newline)).getD (durableLen - offset) + 1
      match slice bytes offset (stop - 1) with
      | none => none
      | some line =>
        if line.all isAsciiWhitespace || (format.read line).isSome then
          checkLines bytes durableLen stop
        else some false
  else some true
termination_by durableLen - offset

/-- The repair with its loop; its result is nothing if an index was out of range. -/
def repairBytes (invalidRecordMessage : String) : FileM (Option Unit) := do
  match ← file .read with
  | none => pure (some ())
  | some bytes =>
    let durableLen := completeLength bytes
    match checkLines format bytes durableLen 0 with
    | none => pure none
    | some false => throw (.invalidRequest invalidRecordMessage)
    | some true =>
      if durableLen ≠ bytes.length then
        file (.setLen durableLen)
        file .syncAll
      pure (some ())

end

/-! ### Files are lines and a tail -/

/-- Every file is lines and a piece of a line. -/
theorem split_lines (bytes : List UInt8) :
    ∃ ls tail, bytes = unlines ls ++ tail ∧ (∀ line ∈ ls, newline ∉ line) ∧ newline ∉ tail := by
  induction bytes with
  | nil => exact ⟨[], [], rfl, List.forall_mem_nil _, List.not_mem_nil⟩
  | cons b bytes ih =>
    obtain ⟨ls, tail, rfl, single, free⟩ := ih
    by_cases ends : b = newline
    · subst ends
      refine ⟨[] :: ls, tail, by simp, ?_, free⟩
      exact List.forall_mem_cons.mpr ⟨List.not_mem_nil, single⟩
    · have differs : newline ≠ b := Ne.symm ends
      cases ls with
      | nil =>
        refine ⟨[], b :: tail, by simp, List.forall_mem_nil _, ?_⟩
        simp [differs, free]
      | cons line ls =>
        obtain ⟨first, others⟩ := List.forall_mem_cons.mp single
        refine ⟨(b :: line) :: ls, tail, by simp, ?_, free⟩
        exact List.forall_mem_cons.mpr ⟨by simp [differs, first], others⟩

theorem complete_part {ls : List (List UInt8)} {tail : List UInt8} (free : newline ∉ tail) :
    (unlines ls ++ tail).take (completeLength (unlines ls ++ tail)) = unlines ls := by
  rw [completeLength_append ls free, List.take_left']
  rfl

/-- The part is empty or ends in a newline. -/
def Terminated (part : List UInt8) : Prop := part = [] ∨ part.getLast? = some newline

/-- The longest part that is empty or ends in a newline. -/
def IsCompletePart (bytes part : List UInt8) : Prop :=
  part <+: bytes ∧ Terminated part ∧ ∀ other, other <+: bytes → Terminated other → other <+: part

theorem isCompletePart_lines {ls : List (List UInt8)} {tail : List UInt8} (free : newline ∉ tail) :
    IsCompletePart (unlines ls ++ tail) (unlines ls) := by
  refine ⟨List.prefix_append _ _, ?_, fun other within terminated => ?_⟩
  · rcases unlines_getLast? ls with rfl | last
    · exact .inl rfl
    · exact .inr last
  · rcases Nat.le_total other.length (unlines ls).length with short | long
    · exact List.prefix_of_prefix_length_le within (List.prefix_append _ _) short
    · -- a longer part would end in the tail
      obtain ⟨more, rfl⟩ := List.prefix_of_prefix_length_le (List.prefix_append _ _) within long
      have inside := (List.prefix_append_right_inj _).mp within
      rcases List.eq_nil_or_concat more with rfl | ⟨front, last, rfl⟩
      · exact ⟨[], (List.append_nil _).trans (List.append_nil _)⟩
      · rcases terminated with none | ends
        · simp at none
        · rw [List.concat_eq_append, ← List.append_assoc, List.getLast?_concat] at ends
          have member : last ∈ tail := inside.subset (by simp)
          exact absurd (Option.some.inj ends ▸ member) free

theorem isCompletePart_take (bytes : List UInt8) :
    IsCompletePart bytes (bytes.take (completeLength bytes)) := by
  obtain ⟨ls, tail, rfl, _, free⟩ := split_lines bytes
  rw [complete_part free]
  exact isCompletePart_lines free

/-! ### The loop checks the lines -/

section

variable {format : JsonLines R}

/-- A line of the file, between what comes before it and what comes after. -/
theorem slice_middle (before line after : List UInt8) :
    slice (before ++ line ++ after) before.length (before.length + line.length) = some line := by
  have whole : (before ++ line).length = before.length + line.length := List.length_append
  rw [slice, if_pos ⟨Nat.le_add_right _ _, by simp⟩, ← whole, List.take_left', List.drop_left']
  · rfl
  · rfl

theorem findIdx?_line {line : List UInt8} (single : newline ∉ line) (rest : List UInt8) :
    (line ++ newline :: rest).findIdx? (· == newline) = some line.length := by
  have none : line.findIdx? (· == newline) = none := by
    rw [List.findIdx?_eq_none_iff]
    exact fun b member => beq_eq_false_iff_ne.mpr fun same => single (same ▸ member)
  rw [List.findIdx?_append, none, List.findIdx?_cons]
  simp

/-- The loop reaches every line, whatever came before it, and stays within the bytes. -/
theorem checkLines_from (done : List (List UInt8)) {ls : List (List UInt8)} (tail : List UInt8)
    (single : ∀ line ∈ ls, newline ∉ line) :
    checkLines format (unlines (done ++ ls) ++ tail) (unlines (done ++ ls)).length
      (unlines done).length = some (ls.all fun line =>
        line.all isAsciiWhitespace || (format.read line).isSome) := by
  induction ls generalizing done with
  | nil =>
    rw [checkLines, if_neg (by simp)]
    rfl
  | cons line ls ih =>
    obtain ⟨first, others⟩ := List.forall_mem_cons.mp single
    have rest : slice (unlines (done ++ line :: ls) ++ tail) (unlines done).length
        (unlines (done ++ line :: ls)).length = some (line ++ newline :: unlines ls) := by
      have whole := slice_middle (unlines done) (unlines (line :: ls)) tail
      rwa [← unlines_append, ← List.length_append, ← unlines_append, unlines_cons] at whole
    have own : slice (unlines (done ++ line :: ls) ++ tail) (unlines done).length
        ((unlines done).length + line.length) = some line := by
      have whole := slice_middle (unlines done) line (newline :: unlines ls ++ tail)
      have same : unlines done ++ line ++ (newline :: unlines ls ++ tail) =
          unlines (done ++ line :: ls) ++ tail := by
        simp only [unlines_append, unlines_cons, List.append_assoc, List.cons_append]
      rwa [same] at whole
    have inside : (unlines done).length < (unlines (done ++ line :: ls)).length := by
      simp only [unlines_append, unlines_cons, List.length_append, List.length_cons]
      omega
    rw [checkLines, if_pos inside, rest]
    simp only [findIdx?_line first, Option.getD_some, Nat.add_sub_cancel, own]
    rw [List.all_cons]
    by_cases accepted : (line.all isAsciiWhitespace || (format.read line).isSome) = true
    · have next := ih (done ++ [line]) others
      have stop : (unlines (done ++ [line])).length = (unlines done).length + line.length + 1 := by
        simp only [unlines_append, unlines_cons, unlines_nil, List.length_append, List.length_cons,
          List.length_nil]
        omega
      rw [stop, List.append_assoc, List.singleton_append] at next
      rw [if_pos accepted, next, accepted, Bool.true_and]
    · rw [if_neg accepted]
      simp only [Bool.not_eq_true] at accepted
      rw [accepted, Bool.false_and]

/-- **The loop ends, and no index is out of range**: it tells whether all complete lines are
accepted. -/
theorem checkLines_complete (bytes : List UInt8) :
    checkLines format bytes (completeLength bytes) 0 =
      some ((lines (bytes.take (completeLength bytes))).all fun line =>
        line.all isAsciiWhitespace || (format.read line).isSome) := by
  obtain ⟨ls, tail, rfl, single, free⟩ := split_lines bytes
  rw [complete_part free, lines_unlines single, completeLength_append ls free]
  exact checkLines_from [] tail single

/-- The repair with its loop is the one over lines. -/
theorem repairBytes_eq (message : String) :
    repairBytes format message = (repairJsonlTail format message >>= fun _ => pure (some ())) := by
  unfold repairBytes repairJsonlTail
  rw [bind_assoc]
  refine congrArg (file .read >>= ·) (funext fun content => ?_)
  cases content with
  | none => rfl
  | some bytes =>
    simp only [checkLines_complete]
    cases (lines (bytes.take (completeLength bytes))).all fun line =>
      line.all isAsciiWhitespace || (format.read line).isSome with
    | false => rfl
    | true =>
      simp only [if_true]
      split
      · simp only [bind_assoc]
      · rfl

/-! ### Reading what was accepted -/

/-- What is relied on of the reader of JSON texts: they are UTF-8, white space is not a value,
and a carriage return after a value is white space. -/
structure JsonText (format : JsonLines R) : Prop where
  decodes : ∀ bytes, (format.read bytes).isSome = true → (decodeUtf8 bytes).isSome = true
  blank : ∀ bytes text, decodeUtf8 bytes = some text → text.all isWhitespace = true →
    format.read bytes = none
  returned : ∀ bytes record, format.read (bytes ++ [carriageReturn]) = some record →
    format.read bytes = some record

/-- The lines that hold records, with the records that are read from them. -/
def ParsedAs (format : JsonLines R) (bytes : List UInt8) (records : List R) : Prop :=
  List.Forall₂ (fun line record => format.read line = some record)
    ((lines bytes).filter fun line => !line.all isAsciiWhitespace) records

theorem blank_decodes {line : List UInt8} (blank : line.all isAsciiWhitespace = true) :
    ∃ text, decodeUtf8 line = some text ∧ text.all isWhitespace = true := by
  suffices ∃ text, line = utf8 text ∧ text.all isWhitespace = true by
    obtain ⟨text, rfl, white⟩ := this
    exact ⟨text, decodeUtf8_utf8 text, white⟩
  induction line with
  | nil => exact ⟨[], rfl, rfl⟩
  | cons b line ih =>
    rw [List.all_cons, Bool.and_eq_true] at blank
    obtain ⟨text, rfl, white⟩ := ih blank.2
    have known : b = 32 ∨ b = 9 ∨ b = 10 ∨ b = 12 ∨ b = 13 := by
      simpa [isAsciiWhitespace, or_assoc] using blank.1
    refine ⟨Char.ofNat b.toNat :: text, ?_, ?_⟩
    · rcases known with rfl | rfl | rfl | rfl | rfl <;> rfl
    · rw [List.all_cons, white]
      rcases known with rfl | rfl | rfl | rfl | rfl <;> rfl

theorem stripReturn_blank {line : List UInt8} (blank : line.all isAsciiWhitespace = true) :
    (stripReturn line).all isAsciiWhitespace = true := by
  unfold stripReturn
  split
  · exact List.all_eq_true.mpr fun b member =>
      List.all_eq_true.mp blank b (line.dropLast_sublist.subset member)
  · exact blank

theorem stripReturn_read (json : JsonText format) {line : List UInt8} {record : R}
    (read : format.read line = some record) : format.read (stripReturn line) = some record := by
  unfold stripReturn
  split
  next ends =>
    obtain ⟨front, rfl⟩ := List.getLast?_eq_some_iff.mp ends
    rw [List.dropLast_concat]
    exact json.returned front record read
  next => exact read

theorem bufLines_lines {ls : List (List UInt8)} (single : ∀ line ∈ ls, newline ∉ line) :
    bufLines (unlines ls) = ls.map stripReturn := by
  rcases unlines_getLast? ls with rfl | closed
  · rfl
  · rw [bufLines, if_pos closed, lines_unlines single]

/-- The reader accepts the lines that the repair accepts, and skips the same ones. -/
theorem parseRecords_accepted (json : JsonText format) {ls : List (List UInt8)}
    (accepted : (ls.all fun line => line.all isAsciiWhitespace || (format.read line).isSome) = true) :
    ∃ records, parseRecords format (ls.map stripReturn) = .ok records ∧
      List.Forall₂ (fun line record => format.read line = some record)
        (ls.filter fun line => !line.all isAsciiWhitespace) records := by
  induction ls with
  | nil => exact ⟨[], rfl, .nil⟩
  | cons line ls ih =>
    rw [List.all_cons, Bool.and_eq_true] at accepted
    obtain ⟨records, parsed, each⟩ := ih accepted.2
    rw [List.map_cons, parseRecords]
    cases blank : line.all isAsciiWhitespace with
    | true =>
      obtain ⟨text, decoded, white⟩ := blank_decodes (stripReturn_blank blank)
      refine ⟨records, ?_, ?_⟩
      · simp only [decoded, white, if_true]
        exact parsed
      · rw [List.filter_cons, if_neg (by rw [blank]; decide)]
        exact each
    | false =>
      have some : (format.read line).isSome = true := by
        have first := accepted.1
        rwa [blank, Bool.false_or] at first
      obtain ⟨record, read⟩ := Option.isSome_iff_exists.mp some
      have stripped := stripReturn_read json read
      obtain ⟨text, decoded⟩ := Option.isSome_iff_exists.mp
        (json.decodes (stripReturn line) (by rw [stripped]; rfl))
      have filled : text.all isWhitespace = false := by
        by_contra white
        have none := json.blank _ text decoded (Bool.not_eq_false _ ▸ white)
        rw [stripped] at none
        cases none
      refine ⟨record :: records, ?_, ?_⟩
      · simp only [decoded, filled, stripped, parsed, Bool.false_eq_true, if_false]
        rfl
      · rw [List.filter_cons, if_pos (by rw [blank]; rfl)]
        exact .cons read each

/-! ### Runs on a file -/

/-- A file system on which no operation fails. -/
def File.working : Prog.Effects FileSystem File where
  answer e f f' := File.Answer e f f' ∧ ∃ value, e.ans = .ok value
  abandon _ f f' := f' = f

theorem runs_file {α : Type} {eff : Prog.Effects FileSystem File} {op : FileOp}
    {next : op.Result → FileM α} {f f' : File} {result : Except ProtocolError α}
    (run : Prog.Runs eff (file op >>= next).run f result f') :
    (∃ e, eff.answer ⟨op, .error e⟩ f f' ∧ result = .error e) ∨
      ∃ value f₁, eff.answer ⟨op, .ok value⟩ f f₁ ∧ Prog.Runs eff (next value).run f₁ result f' := by
  cases run with
  | ask ans answered rest =>
    cases ans with
    | error e =>
      cases rest
      exact .inl ⟨e, answered, rfl⟩
    | ok value => exact .inr ⟨value, _, answered, rest⟩

/-- The complete lines of the file are accepted. -/
def Accepted (format : JsonLines R) (bytes : List UInt8) : Prop :=
  ((lines (bytes.take (completeLength bytes))).all fun line =>
    line.all isAsciiWhitespace || (format.read line).isSome) = true

/-- The operations that cut the tail off. -/
def FileOp.IsCut : FileOp → Prop
  | .setLen _ | .syncAll => True
  | _ => False

/-- How the repair of a file may end. -/
inductive RepairEnds (eff : Prog.Effects FileSystem File) (format : JsonLines R) (message : String)
    (f : File) : Except ProtocolError (Option Unit) → File → Prop where
  | unread {e : ProtocolError} : eff.answer ⟨.read, .error e⟩ f f → RepairEnds eff format message f (.error e) f
  | refused : ¬ Accepted format f.bytes →
      RepairEnds eff format message f (.error (.invalidRequest message)) f
  | whole : Accepted format f.bytes → completeLength f.bytes = f.bytes.length →
      RepairEnds eff format message f (.ok (some ())) f
  | cut {result : Except ProtocolError (Option Unit)} {f' : File} : Accepted format f.bytes →
      completeLength f.bytes ≠ f.bytes.length → f'.bytes = f.bytes.take (completeLength f.bytes) →
      (∀ e, result = .error e → ∃ op g g', op.IsCut ∧ eff.answer ⟨op, .error e⟩ g g') →
      (∀ value, result = .ok value → value = some ()) → RepairEnds eff format message f result f'
  | failed {e : ProtocolError} : eff.answer ⟨.setLen (completeLength f.bytes), .error e⟩ f f →
      RepairEnds eff format message f (.error e) f

theorem repairBytes_ends {eff : Prog.Effects FileSystem File} {message : String} {f f' : File}
    {result : Except ProtocolError (Option Unit)}
    (real : ∀ e g g', eff.answer e g g' → File.Answer e g g')
    (run : Prog.Runs eff (repairBytes format message).run f result f') :
    RepairEnds eff format message f result f' := by
  unfold repairBytes at run
  rcases runs_file run with ⟨e, answered, rfl⟩ | ⟨content, f₁, answered, run⟩
  · obtain rfl : f' = f := real _ _ _ answered
    exact .unread answered
  obtain ⟨rfl, rfl⟩ : f₁ = f ∧ content = f.content := real _ _ _ answered
  have bytes : f₁.bytes = f₁.content.getD [] := rfl
  cases stored : f₁.content with
  | none =>
    rw [stored] at run bytes
    cases run
    refine .whole ?_ ?_ <;> rw [bytes] <;> rfl
  | some content =>
    rw [stored] at run bytes
    obtain rfl : f₁.bytes = content := bytes
    simp only [checkLines_complete] at run
    cases accepted : (lines (f₁.bytes.take (completeLength f₁.bytes))).all fun line =>
        line.all isAsciiWhitespace || (format.read line).isSome with
    | false =>
      rw [accepted] at run
      cases run
      exact .refused (by rw [Accepted, accepted]; decide)
    | true =>
      rw [accepted] at run
      by_cases done : completeLength f₁.bytes = f₁.bytes.length
      · simp only [done, ne_eq, not_true_eq_false, if_false] at run
        cases run
        exact .whole accepted done
      · simp only [ne_eq, done, not_false_eq_true, if_true] at run
        have cut : (f₁.truncate (completeLength f₁.bytes)).bytes =
            f₁.bytes.take (completeLength f₁.bytes) := by
          rw [File.truncate, File.bytes, stored]
          rfl
        rcases runs_file run with ⟨e, answered, rfl⟩ | ⟨_, f₂, answered, run⟩
        · rcases real _ _ _ answered with rfl | rfl
          · exact .failed answered
          · refine .cut accepted done cut ?_ nofun
            rintro _ ⟨⟩
            exact ⟨.setLen _, _, _, trivial, answered⟩
        obtain rfl : f₂ = f₁.truncate (completeLength f₁.bytes) := real _ _ _ answered
        rcases runs_file run with ⟨e, answered, rfl⟩ | ⟨_, f₃, answered, run⟩
        · obtain rfl : f' = f₁.truncate (completeLength f₁.bytes) := real _ _ _ answered
          refine .cut accepted done cut ?_ nofun
          rintro _ ⟨⟩
          exact ⟨.syncAll, _, _, trivial, answered⟩
        · obtain rfl : f₃ = (f₁.truncate (completeLength f₁.bytes)).synced := real _ _ _ answered
          cases run
          refine .cut accepted done cut nofun ?_
          rintro _ ⟨⟩
          rfl

/-- A file of whole lines that are accepted is left as it is, whatever fails. -/
theorem repairBytes_whole {message : String} {f f' : File}
    {result : Except ProtocolError (Option Unit)}
    (whole : completeLength f.bytes = f.bytes.length)
    (run : Prog.Runs File.effects (repairBytes format message).run f result f') : f' = f := by
  cases repairBytes_ends (fun _ _ _ answered => answered) run with
  | unread | refused | whole | failed => rfl
  | cut _ torn => exact absurd whole torn

/-- On a file system that works, the repair of whole lines that are accepted returns. -/
theorem repairBytes_working {message : String} {f f' : File}
    {result : Except ProtocolError (Option Unit)} (accepted : Accepted format f.bytes)
    (whole : completeLength f.bytes = f.bytes.length) :
    Prog.Runs File.working (repairBytes format message).run f result f' ↔
      result = .ok (some ()) ∧ f' = f := by
  constructor
  · intro run
    have real (e : Event FileSystem) (g g' : File) (answered : File.working.answer e g g') :
        File.Answer e g g' := answered.1
    cases repairBytes_ends real run with
    | unread answered => cases answered.2.choose_spec
    | refused refused => exact absurd accepted refused
    | whole => exact ⟨rfl, rfl⟩
    | cut _ torn => exact absurd whole torn
    | failed answered => cases answered.2.choose_spec
  · rintro ⟨rfl, rfl⟩
    refine .ask (.ok f'.content) ⟨⟨rfl, rfl⟩, _, rfl⟩ ?_
    have bytes : f'.bytes = f'.content.getD [] := rfl
    cases stored : f'.content with
    | none => exact .ret _ _
    | some content =>
      rw [stored] at bytes
      obtain rfl : f'.bytes = content := bytes
      have checked := @checkLines_complete R format f'.bytes
      rw [show _ = true from accepted, whole] at checked
      simp only [Prog.bind, ExceptT.bindCont, checked, whole, ne_eq, not_true_eq_false, if_false]
      exact .ret _ _

/-- On a file system that works, whole lines that are accepted are read as their records. -/
theorem readRecords_working (json : JsonText format) {f : File}
    (accepted : Accepted format f.bytes) (whole : completeLength f.bytes = f.bytes.length) :
    ∃ records, ParsedAs format f.bytes records ∧ ∀ result f',
      Prog.Runs File.working (readRecords format).run f result f' ↔
        result = .ok records ∧ f' = f := by
  obtain ⟨ls, tail, split, single, free⟩ := split_lines f.bytes
  have empty : tail = [] := by
    have length := completeLength_append ls free
    rw [← split, whole, split, List.length_append] at length
    exact List.length_eq_zero_iff.mp (by omega)
  rw [empty, List.append_nil] at split
  rw [Accepted, whole, List.take_length, split, lines_unlines single] at accepted
  obtain ⟨records, parsed, each⟩ := parseRecords_accepted json accepted
  have read : f.content.elim (.ok []) (fun bytes => parseRecords format (bufLines bytes)) =
      Except.ok records := by
    have bytes : f.bytes = f.content.getD [] := rfl
    rw [← bufLines_lines single, ← split] at parsed
    cases stored : f.content with
    | none =>
      rw [bytes, stored] at parsed
      exact parsed
    | some content =>
      rw [bytes, stored] at parsed
      exact parsed
  refine ⟨records, ?_, fun result f' => ⟨fun run => ?_, ?_⟩⟩
  · rw [ParsedAs, split, lines_unlines single]
    exact each
  · rcases runs_file run with ⟨e, answered, _⟩ | ⟨content, f₁, answered, run⟩
    · cases answered.2.choose_spec
    obtain ⟨rfl, rfl⟩ : f₁ = f ∧ content = f.content := answered.1
    have returned : Prog.Runs File.working (.ret (f₁.content.elim (.ok []) fun bytes =>
        parseRecords format (bufLines bytes))) f₁ result f' := by
      cases stored : f₁.content with
      | none =>
        rw [stored] at run
        exact run
      | some content =>
        rw [stored] at run
        exact run
    rw [read] at returned
    cases returned
    exact ⟨rfl, rfl⟩
  · rintro ⟨rfl, rfl⟩
    refine .ask (.ok f'.content) ⟨⟨rfl, rfl⟩, _, rfl⟩ ?_
    have returned : Prog.Runs File.working (.ret (Except.ok records : Except ProtocolError (List R)))
        f' (Except.ok records) f' := .ret _ _
    rw [← read] at returned ⊢
    cases stored : f'.content with
    | none =>
      rw [stored] at returned
      exact returned
    | some content =>
      rw [stored] at returned
      exact returned

theorem accepted_cut {bytes bytes' : List UInt8}
    (cut : bytes' = bytes.take (completeLength bytes)) :
    completeLength bytes' = bytes'.length ∧ (Accepted format bytes' ↔ Accepted format bytes) := by
  obtain ⟨ls, tail, rfl, single, free⟩ := split_lines bytes
  rw [complete_part free] at cut
  subst cut
  have whole : completeLength (unlines ls) = (unlines ls).length := by
    simpa using completeLength_append ls (List.not_mem_nil (a := newline))
  refine ⟨whole, ?_⟩
  rw [Accepted, Accepted, whole, List.take_length, complete_part free]

/-- On a file system that works, a repair that fails changes nothing. -/
theorem repairBytes_refused {message : String} {f f' : File} {e : ProtocolError}
    (run : Prog.Runs File.working (repairBytes format message).run f (.error e) f') : f' = f := by
  have real (e : Event FileSystem) (g g' : File) (answered : File.working.answer e g g') :
      File.Answer e g g' := answered.1
  cases repairBytes_ends real run with
  | unread | refused | failed => rfl
  | cut _ _ _ failed =>
    obtain ⟨op, g, g', _, answered⟩ := failed e rfl
    cases answered.2.choose_spec

/-- **Repair and reading agree**: a repair ends with every index in range; if it returns, the
file is its complete part, is left alone by a second repair, and is then read as the records
of its lines that are not blank; if it fails, the file is as it was, or it was the cut or its
sync that failed and the file may already be its complete part. -/
theorem repair_reads (json : JsonText format) (message : String) (f f' : File)
    (history : List (Event FileSystem)) (result : Except ProtocolError (Option Unit))
    (run : Prog.Steps (repairBytes format message).run history (.ret result))
    (along : File.effects.Along history f f') :
    result ≠ .ok none ∧
    (result = .ok (some ()) → IsCompletePart f.bytes f'.bytes ∧
      (∀ again f'', Prog.Runs File.effects (repairBytes format message).run f' again f'' → f'' = f') ∧
      (∀ again f'', Prog.Runs File.working (repairBytes format message).run f' again f'' ↔
        again = .ok (some ()) ∧ f'' = f') ∧
      ∃ records, ParsedAs format f'.bytes records ∧ ∀ read f'',
        Prog.Runs File.working (readRecords format).run f' read f'' ↔ read = .ok records ∧ f'' = f') ∧
    (∀ e, result = .error e → f' = f ∨ IsCompletePart f.bytes f'.bytes ∧
      ∃ op : FileOp, op.IsCut ∧ (⟨op, .error e⟩ : Event FileSystem) ∈ history) ∧
    ∀ e f'', Prog.Runs File.working (repairBytes format message).run f (.error e) f'' → f'' = f := by
  have refused (e : ProtocolError) (f'' : File)
      (run : Prog.Runs File.working (repairBytes format message).run f (.error e) f'') : f'' = f :=
    repairBytes_refused run
  have returned (accepted : Accepted format f'.bytes)
      (whole : completeLength f'.bytes = f'.bytes.length) :=
    And.intro (fun again f'' run => @repairBytes_whole R format message f' f'' again whole run)
      (And.intro (fun again f'' => @repairBytes_working R format message f' f'' again accepted whole)
        (readRecords_working json accepted whole))
  -- every failure is one of the history
  have run := Prog.runs_along along (List.Subset.refl _) run
  have real (e : Event FileSystem) (g g' : File)
      (answered : (File.effects.within history).answer e g g') : File.Answer e g g' := answered.2
  cases repairBytes_ends real run with
  | unread | refused | failed => exact ⟨nofun, nofun, fun _ _ => .inl rfl, refused⟩
  | whole accepted whole =>
    refine ⟨nofun, fun _ => ⟨?_, returned accepted whole⟩, nofun, refused⟩
    have part := isCompletePart_take f.bytes
    rwa [whole, List.take_length] at part
  | cut accepted torn bytes failed value =>
    -- The file is cut, whether or not this is then told as an error.
    have part : IsCompletePart f.bytes f'.bytes := bytes ▸ isCompletePart_take f.bytes
    obtain ⟨whole, same⟩ := @accepted_cut R format _ _ bytes
    refine ⟨?_, fun _ => ⟨part, returned (same.mpr accepted) whole⟩, ?_, refused⟩
    · intro panicked
      cases value none panicked
    · intro e ended
      obtain ⟨op, _, _, cuts, member, _⟩ := failed e ended
      exact .inr ⟨part, op, cuts, member⟩

/-! ### A torn file -/

/-- What is left to do once the lines of a torn file were accepted. -/
theorem repairBytes_torn {message : String} {bytes : List UInt8}
    {history : List (Event FileSystem)} {result : Except ProtocolError (Option Unit)}
    (accepted : Accepted format bytes) (torn : completeLength bytes ≠ bytes.length)
    (rest : Prog.Steps (do
      file (.setLen (completeLength bytes))
      file .syncAll
      pure (some ()) : FileM (Option Unit)).run history (.ret result)) :
    Prog.Steps (repairBytes format message).run
      (⟨.read, (.ok (some bytes) : Except ProtocolError (Option (List UInt8)))⟩ :: history)
      (.ret result) := by
  refine @Prog.Steps.step FileSystem _ .read _ _ _ (.ok (some bytes)) ?_
  have checked := @checkLines_complete R format bytes
  rw [show _ = true from accepted] at checked
  simp only [Prog.bind, ExceptT.bindCont, checked, ne_eq, torn, not_false_eq_true, if_true]
  exact rest

end

/-- Records without members. -/
def braces : JsonLines Unit where
  text _ := ['{', '}']
  read bytes := if bytes = [123, 125] ∨ bytes = [123, 125, carriageReturn] then some () else none
  read_text record := by
    cases record
    decide
  visible _ := by simp
  opens _ := rfl

theorem braces_jsonText : JsonText braces := by
  have read (bytes : List UInt8) : (braces.read bytes).isSome = true ↔
      bytes = utf8 ['{', '}'] ∨ bytes = utf8 ['{', '}', '\r'] := by
    have first : utf8 ['{', '}'] = [123, 125] := by decide
    have second : utf8 ['{', '}', '\r'] = [123, 125, carriageReturn] := by decide
    rw [first, second]
    by_cases known : bytes = [123, 125] ∨ bytes = [123, 125, carriageReturn] <;> simp [braces, known]
  refine ⟨?_, ?_, ?_⟩
  · intro bytes found
    rcases (read bytes).mp found with rfl | rfl <;> rw [decodeUtf8_utf8] <;> rfl
  · intro bytes text decoded white
    by_contra found
    rw [← ne_eq, ← Option.isSome_iff_ne_none] at found
    rcases (read bytes).mp found with rfl | rfl <;>
    · rw [decodeUtf8_utf8] at decoded
      obtain rfl := Option.some.inj decoded
      exact absurd white (by decide)
  · intro bytes record found
    have known : bytes ++ [carriageReturn] = [123, 125] ∨
        bytes ++ [carriageReturn] = [123, 125, carriageReturn] := by
      by_contra other
      rw [show braces.read (bytes ++ [carriageReturn]) = none from if_neg other] at found
      cases found
    have front : bytes = [123, 125] := by
      rcases known with same | same
      · have last := congrArg List.getLast? same
        rw [List.getLast?_concat] at last
        exact absurd last (by decide)
      · exact List.append_inj_left' same rfl
    rw [front]
    rfl

/-- A record, a blank line and a piece of a line. -/
def tornBraces : File := ⟨some [123, 125, 13, 10, 32, 10, 123], 0⟩

/-- What is asked of the torn file and answered, up to the sync. -/
def tornHistory (synced : Except ProtocolError Unit) : List (Event FileSystem) :=
  [⟨.read, (.ok tornBraces.content : Except ProtocolError (Option (List UInt8)))⟩,
    ⟨.setLen 6, (.ok () : Except ProtocolError Unit)⟩, ⟨.syncAll, synced⟩]

theorem steps_torn : Prog.Steps (repairBytes braces "").run (tornHistory (.ok ()))
    (.ret (.ok (some ()))) := by
  refine repairBytes_torn (by unfold Accepted; decide) (by decide) ?_
  refine @Prog.Steps.step FileSystem _ (.setLen _) _ _ _ (.ok ()) ?_
  exact @Prog.Steps.step FileSystem _ .syncAll _ _ _ (.ok ()) (.refl _)

theorem steps_torn_unsynced (e : ProtocolError) :
    Prog.Steps (repairBytes braces "").run (tornHistory (.error e)) (.ret (.error e)) := by
  refine repairBytes_torn (by unfold Accepted; decide) (by decide) ?_
  refine @Prog.Steps.step FileSystem _ (.setLen _) _ _ _ (.ok ()) ?_
  exact @Prog.Steps.step FileSystem _ .syncAll _ _ _ (.error e) (.refl _)

theorem repair_reads_torn : ∃ history f',
    Prog.Steps (repairBytes braces "").run history (.ret (.ok (some ()))) ∧
    File.effects.Along history tornBraces f' ∧ IsCompletePart tornBraces.bytes f'.bytes ∧
    ∃ records, ParsedAs braces f'.bytes records ∧
      Prog.Runs File.working (readRecords braces).run f' (.ok records) f' := by
  have along : File.effects.Along (tornHistory (.ok ())) tornBraces
      ((tornBraces.truncate 6).synced) :=
    .cons ⟨rfl, rfl⟩ (.cons rfl (.cons rfl (.nil _)))
  obtain ⟨_, returned, _⟩ := repair_reads braces_jsonText "" _ _ _ _ steps_torn along
  obtain ⟨part, _, _, records, parsed, reads⟩ := returned rfl
  exact ⟨_, _, steps_torn, along, part, records, parsed, (reads _ _).mpr ⟨rfl, rfl⟩⟩

/-- The sync may fail after the tail was cut off. -/
theorem repair_cut_unsynced : ¬ ∀ (f f' : File) (history : List (Event FileSystem))
    (e : ProtocolError), Prog.Steps (repairBytes braces "").run history (.ret (.error e)) →
    File.effects.Along history f f' → f'.content = f.content := by
  intro unchanged
  have along : File.effects.Along (tornHistory (.error (.io "sync"))) tornBraces
      (tornBraces.truncate 6) :=
    .cons ⟨rfl, rfl⟩ (.cons rfl (.cons rfl (.nil _)))
  exact absurd (unchanged _ _ _ _ (steps_torn_unsynced _) along) (by decide)

end Praefectus
