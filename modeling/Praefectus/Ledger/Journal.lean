import Praefectus.Ledger.File

/-!
# The journal that the ledger file keeps

A journal is the list of complete records in the file. The number of records known
to be on disk and the presence of a torn tail are all that matters of the rest. An
append to a file with a torn tail would glue a record to a fragment; the journal
records that it happened, and nothing is known of the file from then on.
-/

namespace Praefectus

structure Journal (R : Type) where
  records : List R
  synced : Nat
  torn : Bool
  glued : Bool

inductive JournalOp (R : Type) where
  | repairTail
  | records
  | append (record : R)

abbrev JournalOp.Result {R : Type} : JournalOp R → Type
  | .records => List R
  | _ => Unit

namespace Journal

variable {R : Type}

def empty : Journal R := ⟨[], 0, false, false⟩

def mend (j : Journal R) : Journal R := { j with torn := false }

def push (j : Journal R) (record : R) : Journal R := { j with records := j.records ++ [record] }

def sync (j : Journal R) : Journal R := { j with synced := j.records.length }

/-- What an operation may have done when it reports `ans`. -/
def Answer (j j' : Journal R) : (op : JournalOp R) → Except ProtocolError op.Result → Prop
  | .repairTail, .ok () => j' = j.mend
  | .repairTail, .error _ => j' = j ∨ j' = j.mend
  | .records, .ok records => j' = j ∧ (j.torn = false → records = j.records)
  | .records, .error _ => j' = j
  | .append record, .ok () =>
    (j.torn = false ∧ j' = (j.push record).sync) ∨ (j.torn = true ∧ j' = { j with glued := true })
  | .append record, .error _ =>
    (j.torn = false ∧ ((∃ torn, j' = { j with torn := torn }) ∨ j' = j.push record)) ∨
    (j.torn = true ∧ (j' = j ∨ j' = { j with glued := true }))

/-- One operation on the journal; a glued journal stays as it is. -/
def Step (j : Journal R) (op : JournalOp R) (ans : Except ProtocolError op.Result)
    (j' : Journal R) : Prop :=
  if j.glued then j' = j else Answer j j' op ans

/-- A loss of power keeps the records known to be on disk. -/
def Loses (j j' : Journal R) : Prop :=
  if j.glued then j' = j
  else ∃ kept torn, j.synced ≤ kept ∧ j' = ⟨j.records.take kept, j.synced, torn, false⟩

/-! ### What a step can do -/

variable {j j' : Journal R}

theorem step_iff (sound : j.glued = false) {op : JournalOp R}
    {ans : Except ProtocolError op.Result} : j.Step op ans j' ↔ Answer j j' op ans := by
  rw [Step, if_neg (by rw [sound]; exact Bool.false_ne_true)]

theorem step_repair (sound : j.glued = false) {ans : Except ProtocolError Unit}
    (step : j.Step .repairTail ans j') :
    j'.records = j.records ∧ j'.synced = j.synced ∧ j'.glued = false ∧
      (ans = .ok () → j'.torn = false) := by
  rw [step_iff sound] at step
  cases ans with
  | ok =>
    obtain rfl := step
    exact ⟨rfl, rfl, sound, fun _ => rfl⟩
  | error e =>
    rcases step with rfl | rfl <;> exact ⟨rfl, rfl, sound, fun same => nomatch same⟩

theorem step_records (sound : j.glued = false) (whole : j.torn = false)
    {ans : Except ProtocolError (List R)} (step : j.Step .records ans j') :
    j' = j ∧ ∀ records, ans = .ok records → records = j.records := by
  rw [step_iff sound] at step
  cases ans with
  | ok found =>
    obtain ⟨rfl, same⟩ := step
    refine ⟨rfl, ?_⟩
    rintro _ ⟨rfl⟩
    exact same whole
  | error e => exact ⟨step, fun _ same => nomatch same⟩

theorem step_append_ok (sound : j.glued = false) (whole : j.torn = false) {record : R}
    (step : j.Step (.append record) (.ok ()) j') : j' = (j.push record).sync := by
  rw [step_iff sound] at step
  rcases step with ⟨_, same⟩ | ⟨torn, _⟩
  · exact same
  · rw [whole] at torn
    contradiction

/-- A failed append may have added its record, but not made it durable. -/
theorem step_append_error (sound : j.glued = false) (whole : j.torn = false) {record : R}
    {e : ProtocolError} (step : j.Step (.append record) (.error e) j') :
    (j'.records = j.records ∨ j'.records = j.records ++ [record]) ∧ j'.synced = j.synced ∧
      j'.glued = false := by
  rw [step_iff sound] at step
  rcases step with ⟨_, ⟨torn, rfl⟩ | rfl⟩ | ⟨torn, _⟩
  · exact ⟨.inl rfl, rfl, sound⟩
  · exact ⟨.inr rfl, rfl, sound⟩
  · rw [whole] at torn
    contradiction

theorem loses_take (sound : j.glued = false) (lost : j.Loses j') :
    ∃ kept, j.synced ≤ kept ∧ j'.records = j.records.take kept ∧ j'.synced = j.synced ∧
      j'.glued = false := by
  rw [Loses, if_neg (by rw [sound]; exact Bool.false_ne_true)] at lost
  obtain ⟨kept, torn, within, rfl⟩ := lost
  exact ⟨kept, within, rfl, rfl, rfl⟩

end Journal

/-! ### The file keeps the journal -/

variable {R : Type} (format : JsonLines R)

def JsonLines.line (record : R) : List UInt8 := utf8 (format.text record)

/-- The complete part of the file is the lines of the records. -/
def Keeps (f : File) (j : Journal R) : Prop :=
  j.glued = true ∨ ∃ tail,
    f.bytes = unlines (j.records.map format.line) ++ tail ∧ newline ∉ tail ∧
    (j.torn = false → tail = []) ∧ j.synced ≤ j.records.length ∧
    (unlines ((j.records.take j.synced).map format.line)).length ≤ f.durable

variable {format}

theorem line_byte_visible (record : R) {b : UInt8} (member : b ∈ format.line record) :
    32 ≤ b.toNat := by
  by_contra low
  obtain ⟨c, within, same⟩ := utf8_byte_low member (by omega)
  have := format.visible record c within
  omega

theorem line_single (record : R) : newline ∉ format.line record :=
  fun member => absurd (line_byte_visible record member) (by decide)

theorem lines_single (records : List R) : ∀ line ∈ records.map format.line, newline ∉ line := by
  intro line member
  obtain ⟨record, _, rfl⟩ := List.mem_map.mp member
  exact line_single record

theorem text_not_blank (record : R) : (format.text record).all isWhitespace = false := by
  obtain ⟨rest, same⟩ := List.head?_eq_some_iff.mp (format.opens record)
  rw [same]
  rfl

theorem stripReturn_line (record : R) : stripReturn (format.line record) = format.line record := by
  refine if_neg fun last => ?_
  exact absurd (line_byte_visible record (List.mem_of_getLast? last)) (by decide)

/-- The repair accepts the lines of any records. -/
theorem lines_valid (records : List R) :
    ((lines (unlines (records.map format.line))).all fun line =>
      line.all isAsciiWhitespace || (format.read line).isSome) = true := by
  rw [lines_unlines (lines_single records), List.all_eq_true]
  intro line member
  obtain ⟨record, _, rfl⟩ := List.mem_map.mp member
  have read : format.read (format.line record) = some record := format.read_text record
  rw [read]
  simp

theorem parseRecords_lines (records : List R) :
    parseRecords format (records.map format.line) = .ok records := by
  induction records with
  | nil => rfl
  | cons record records ih =>
    have read : format.read (format.line record) = some record := format.read_text record
    have decoded : decodeUtf8 (format.line record) = some (format.text record) :=
      decodeUtf8_utf8 (format.text record)
    rw [List.map_cons, parseRecords]
    simp only [decoded, text_not_blank, read, ih, Bool.false_eq_true, if_false]
    rfl

theorem bufLines_records (records : List R) :
    bufLines (unlines (records.map format.line)) = records.map format.line := by
  have strip : (records.map format.line).map stripReturn = records.map format.line := by
    rw [List.map_map]
    exact List.map_congr_left fun record _ => stripReturn_line record
  rcases unlines_getLast? (records.map format.line) with empty | closed
  · rw [empty]; rfl
  · rw [bufLines, if_pos closed, lines_unlines (lines_single records), strip]

/-- A file without a torn tail holds exactly the records that are read from it. -/
theorem parseRecords_kept (records : List R) :
    parseRecords format (bufLines (unlines (records.map format.line))) = .ok records := by
  rw [bufLines_records, parseRecords_lines]

end Praefectus
